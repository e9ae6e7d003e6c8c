import DavGateway.Decimal.Shortest
import DavGateway.Text.Number

/-!
# Values of settings

What a settings file holds, whatever its format, and how a value is read as one of another kind:
words stand for truth values, texts for numbers, and every simple value for a text.
-/

namespace DavGateway

/-- A value in a settings file. -/
inductive Value where
  | null
  | bool (value : Bool)
  | int (value : Int)
  | float (value : Binary64)
  | text (value : String)
  | list (items : List Value)
  | table (entries : List (String × Value))
deriving Repr, Inhabited

namespace Value

/-- The value under a key of a table. -/
def get? (v : Value) (key : String) : Option Value :=
  match v with
  | .table entries => entries.lookup key
  | _ => none

/-- The letter in lower case. Beyond ASCII, only the Kelvin sign has a lower case in ASCII, and all
that is looked for in settings is ASCII. -/
def loweredChar (c : Char) : Char := if c = '\u212a' then 'k' else c.toLower

/-- The word in lower case. -/
def lowered (s : String) : String := String.ofList (s.toList.map loweredChar)

/-- The truth value that a word stands for. -/
def wordBool? (word : String) : Option Bool :=
  if ["true", "on", "yes"].contains word then some true
  else if ["false", "off", "no"].contains word then some false
  else none

/-- Reads a truth value: numbers other than zero are true. -/
def toBool? : Value → Option Bool
  | .bool b => some b
  | .int n => some (n != 0)
  | .float x => some !x.isZero
  | .text s =>
    let word := lowered s
    if word = "1" then some true else if word = "0" then some false else wordBool? word
  | _ => none

/-- Reads an unsigned 64-bit number. -/
def toWord? : Value → Option Nat
  | .bool b => some b.toNat
  | .int n => if 0 ≤ n then some n.toNat else none
  | .float x => some x.toWord
  | .text s =>
    match wordBool? (lowered s) with
    | some b => some b.toNat
    | none => Text.readWord? s.toList
  | _ => none

/-- Reads a text. -/
def toText? : Value → Option String
  | .bool b => some (if b then "true" else "false")
  | .int n => some (toString n)
  | .float x => some x.text
  | .text s => some s
  | _ => none

/-- Reads a value that may be null. -/
def optional? {α : Type} (read : Value → Option α) : Value → Option (Option α)
  | .null => some none
  | v => (read v).map some

end Value

end DavGateway
