/-!
# Numbers in text

Unsigned 64-bit numbers as they are written in headers, options and arguments, and decimal output
of a fixed width.
-/

namespace DavGateway.Text

/-- One more than the largest 64-bit number. -/
def wordLimit : Nat := 18446744073709551616

/-- One more than the largest count a signed 64-bit number holds. -/
def signedLimit : Nat := 9223372036854775808

/-- The value of an ASCII digit. -/
def digitValue (c : Char) : Nat := c.toNat - '0'.toNat

/-- The value of a row of ASCII digits. -/
def digitsValue (s : List Char) : Nat := s.foldl (fun n c => n * 10 + digitValue c) 0

/-- Reads one or more digits and nothing else. -/
def readDigits? (s : List Char) : Option Nat :=
  if !s.isEmpty && s.all Char.isDigit then some (digitsValue s) else none

/-- Reads a 64-bit unsigned number: digits, with a plus sign in front or without. -/
def readWord? (s : List Char) : Option Nat :=
  let digits := match s with
    | '+' :: rest => rest
    | _ => s
  (readDigits? digits).filter (· < wordLimit)

/-- `n` in decimal, filled up with zeros to `width` digits. -/
def padded (width n : Nat) : String :=
  let digits := Nat.toDigits 10 n
  String.ofList (List.replicate (width - digits.length) '0' ++ digits)

/-- The hexadecimal digits of `n`, in lower case. -/
def hex (n : Nat) : String := String.ofList (Nat.toDigits 16 n)

/-- The value of a hexadecimal digit in either case. -/
def hexValue? (c : Char) : Option Nat :=
  if c.isDigit then some (digitValue c)
  else if 'a' ≤ c && c ≤ 'f' then some (c.toNat - 'a'.toNat + 10)
  else if 'A' ≤ c && c ≤ 'F' then some (c.toNat - 'A'.toNat + 10)
  else none

end DavGateway.Text
