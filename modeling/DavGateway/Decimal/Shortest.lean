import DavGateway.Decimal.Binary64

/-!
# Shortest decimals

The text of a binary number has the fewest digits that read back as that number, and of those the
ones nearest to it. It is always positional.
-/

namespace DavGateway.Binary64

/-- A fraction of natural numbers. -/
structure Fraction where
  num : Nat
  den : Nat
deriving DecidableEq, Repr

namespace Fraction

/-- Is `a` less than `b`? -/
def lt (a b : Fraction) : Bool := a.num * b.den < b.num * a.den

/-- Is `a` at most `b`? -/
def le (a b : Fraction) : Bool := a.num * b.den ≤ b.num * a.den

/-- `n` times ten to the `e`. -/
def tenfold (n : Nat) (e : Int) : Fraction :=
  if 0 ≤ e then ⟨n * Nat.pow 10 e.toNat, 1⟩ else ⟨n, Nat.pow 10 (-e).toNat⟩

/-- How far two fractions are apart. -/
def distance (a b : Fraction) : Fraction :=
  let (x, y) := (a.num * b.den, b.num * a.den)
  ⟨(x - y) + (y - x), a.den * b.den⟩

end Fraction

/-- The number of digits in front of the point: the first `p` from `guess` on with the value below
ten to the `p`. -/
def magnitudeFrom (value : Fraction) : Nat → Int → Int
  | 0, p => p
  | fuel + 1, p =>
    if value.lt (Fraction.tenfold 1 p) then p else magnitudeFrom value fuel (p + 1)

/-- The interval of the fractions that read back as a number, and whether its ends are in it. -/
def interval (m : Nat) (e : Int) : Fraction × Fraction × Bool :=
  let below := if m = significandLimit / 2 ∧ leastExponent < e then 4 * m - 1 else 4 * m - 2
  let (low, den) := scaled below (e - 2)
  let (high, _) := scaled (4 * m + 2) (e - 2)
  (⟨low, den⟩, ⟨high, den⟩, m % 2 == 0)

/-- The neighbours of a value on the grid of multiples of ten to the `e` that are in an interval;
the nearer one of two. -/
def onGrid? (value low high : Fraction) (ends : Bool) (e : Int) : Option Nat :=
  let unit := Fraction.tenfold 1 e
  let floor := (value.num * unit.den) / (value.den * unit.num)
  let fits := fun n =>
    let x := Fraction.tenfold n e
    if ends then low.le x && x.le high else low.lt x && x.lt high
  match fits floor, fits (floor + 1) with
  | true, true =>
    let down := (Fraction.tenfold floor e).distance value
    let up := (Fraction.tenfold (floor + 1) e).distance value
    some (if down.le up then floor else floor + 1)
  | true, false => some floor
  | false, true => some (floor + 1)
  | false, false => none

/-- The digits and the decimal exponent: the first grid, from the coarsest on, with a hit. -/
def shortestFrom (value low high : Fraction) (ends : Bool) : Nat → Int → Nat × Int
  | 0, e => (0, e)
  | fuel + 1, e =>
    match onGrid? value low high ends e with
    | some digits => (digits, e)
    | none => shortestFrom value low high ends fuel (e - 1)

/-- The shortest decimal of a number above zero. -/
def shortest (m : Nat) (e : Int) : Nat × Int :=
  let (num, den) := scaled m e
  let value : Fraction := ⟨num, den⟩
  let guess : Int := (((Nat.log2 m : Int) + e) * 30103 / 100000) - 1
  let (low, high, ends) := interval m e
  shortestFrom value low high ends 20 (magnitudeFrom value 5 guess)

/-- `digits` times ten to the `e`, positionally. -/
def positional (digits : Nat) (e : Int) : String :=
  let s := Nat.toDigits 10 digits
  if 0 ≤ e then String.ofList (s ++ List.replicate e.toNat '0')
  else
    let places := (-e).toNat
    let s := List.replicate (places + 1 - s.length) '0' ++ s
    let part := ((s.drop (s.length - places)).reverse.dropWhile (· == '0')).reverse
    let whole := String.ofList (s.take (s.length - places))
    if part.isEmpty then whole else whole ++ "." ++ String.ofList part

/-- The text of a number. -/
def text : Binary64 → String
  | .nan => "NaN"
  | .infinite negative => if negative then "-inf" else "inf"
  | .finite negative m e =>
    let (digits, e) := if m = 0 then (0, 0) else shortest m e
    (if negative then "-" else "") ++ positional digits e

end DavGateway.Binary64
