import DavGateway.Text.Number

/-!
# Binary floating point

Numbers of the 64-bit binary format as exact integers: a significand of at most 53 bits times a
power of two. A decimal is rounded to the nearest of them, and a tie goes to the even significand.
-/

namespace DavGateway

/-- A number of the 64-bit binary format; a finite one is the significand times two to the
exponent. -/
inductive Binary64 where
  | finite (negative : Bool) (significand : Nat) (exponent : Int)
  | infinite (negative : Bool)
  | nan
deriving DecidableEq, Repr

namespace Binary64

/-- The least exponent. -/
def leastExponent : Int := -1074

/-- One more than the largest significand. -/
def significandLimit : Nat := 9007199254740992

/-- `n` times two to the `e`, over a denominator. -/
def scaled (n : Nat) (e : Int) : Nat × Nat :=
  if 0 ≤ e then (n * Nat.pow 2 e.toNat, 1) else (n, Nat.pow 2 (-e).toNat)

/-- The quotient rounded to the nearest integer, a tie to the even one. -/
def roundEven (num den : Nat) : Nat :=
  let q := num / den
  let twice := 2 * (num % den)
  if twice < den then q else if den < twice then q + 1 else q + q % 2

/-- The exponent at which a quotient has 53 bits, or the least one. -/
def exponentOf (num den : Nat) : Int :=
  let guess : Int := (Nat.log2 num : Int) - (Nat.log2 den : Int) - 53
  let (n, d) := scaled num (-guess)
  max leastExponent (if n / (d * den) < significandLimit then guess else guess + 1)

/-- The number nearest to a quotient above zero. -/
def ofQuotient (negative : Bool) (num den : Nat) : Binary64 :=
  let e := exponentOf num den
  let (n, d) := scaled num (-e)
  let m := roundEven n (d * den)
  let (m, e) := if m = significandLimit then (m / 2, e + 1) else (m, e)
  if 1024 ≤ (Nat.log2 m : Int) + e then .infinite negative else .finite negative m e

/-- The number nearest to `digits` times ten to the `exponent`. -/
def ofDecimal (negative : Bool) (digits : Nat) (exponent : Int) : Binary64 :=
  let magnitude := ((Nat.toDigits 10 digits).length : Int) + exponent
  if digits = 0 ∨ magnitude < -330 then .finite negative 0 leastExponent
  else if 310 < magnitude then .infinite negative
  else if 0 ≤ exponent then ofQuotient negative (digits * Nat.pow 10 exponent.toNat) 1
  else ofQuotient negative digits (Nat.pow 10 (-exponent).toNat)

/-- Is it zero, with either sign? -/
def isZero : Binary64 → Bool
  | .finite _ m _ => m == 0
  | _ => false

/-- The nearest unsigned 64-bit number, a half going up. What is out of range becomes the end of
the range on its side, and what is no number becomes zero. -/
def toWord : Binary64 → Nat
  | .nan => 0
  | .infinite negative => if negative then 0 else Text.wordLimit - 1
  | .finite true _ _ => 0
  | .finite false m e =>
    let (n, d) := scaled m e
    min ((2 * n + d) / (2 * d)) (Text.wordLimit - 1)

/-! ## Reading -/

/-- The exponent part of a decimal: nothing, or a letter, a sign and digits. -/
def readExponent? (s : List Char) : Option Int :=
  match s with
  | [] => some 0
  | c :: rest =>
    if c = 'e' ∨ c = 'E' then
      match rest with
      | '-' :: digits => (Text.readDigits? digits).map fun n => -(n : Int)
      | '+' :: digits => (Text.readDigits? digits).map fun n => (n : Int)
      | digits => (Text.readDigits? digits).map fun n => (n : Int)
    else none

/-- Reads a decimal without a sign: digits with or without a point, at least one of them, and an
exponent part. -/
def readUnsigned? (negative : Bool) (s : List Char) : Option Binary64 :=
  let whole := s.takeWhile Char.isDigit
  let rest := s.drop whole.length
  let (part, rest) := match rest with
    | '.' :: rest =>
      let part := rest.takeWhile Char.isDigit
      (part, rest.drop part.length)
    | _ => ([], rest)
  if whole.isEmpty && part.isEmpty then none
  else (readExponent? rest).map fun exponent =>
    ofDecimal negative (Text.digitsValue (whole ++ part)) (exponent - part.length)

/-- Reads a number: a decimal, or a word for what is infinite or no number, in any case, with a
sign or without. -/
def read? (s : List Char) : Option Binary64 :=
  let (negative, s) := match s with
    | '-' :: rest => (true, rest)
    | '+' :: rest => (false, rest)
    | _ => (false, s)
  let word := String.ofList (s.map Char.toLower)
  if word = "inf" ∨ word = "infinity" then some (.infinite negative)
  else if word = "nan" then some .nan
  else readUnsigned? negative s

end Binary64

end DavGateway
