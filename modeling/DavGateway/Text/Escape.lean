import DavGateway.Text.Number

/-!
# Escapes

Characters that are written by their number, with a fixed count of hexadecimal digits.
-/

namespace DavGateway.Text

/-- Reads `count` hexadecimal digits. -/
def hexDigits? : Nat → List Char → Option (Nat × List Char)
  | 0, s => some (0, s)
  | count + 1, s =>
    match s with
    | [] => none
    | c :: rest => do
      let digit ← hexValue? c
      let (value, rest) ← hexDigits? count rest
      return (digit * Nat.pow 16 count + value, rest)

/-- The character of a number, if there is one. -/
def character? (n : Nat) : Option Char := if n.isValidChar then some (Char.ofNat n) else none

/-- Reads a character written by its number with `count` digits. -/
def numbered? (count : Nat) (s : List Char) : Option (Char × List Char) := do
  let (n, rest) ← hexDigits? count s
  let c ← character? n
  return (c, rest)

end DavGateway.Text
