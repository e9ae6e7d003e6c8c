import DavGateway.Settings.Value
import DavGateway.Text.Escape

/-!
# JSON

Reads a value that is written in JSON. Whole numbers within 64 bits stay whole, all others are
binary floating point, and of two entries with one key the last one counts.
-/

namespace DavGateway.Json

/-- The text without the blanks in front. -/
def skip (s : List Char) : List Char := s.dropWhile fun c => c = ' ' ∨ c = '\t' ∨ c = '\n' ∨ c = '\r'

/-- Is it the first half of a pair of numbers that stand for one character? -/
def isHighHalf (n : Nat) : Bool := 0xD800 ≤ n && n < 0xDC00

/-- Is it the second half of such a pair? -/
def isLowHalf (n : Nat) : Bool := 0xDC00 ≤ n && n < 0xE000

/-- Reads what follows the backslash and the letter `u`: four digits, or two groups of them. -/
def unicode? (s : List Char) : Option (Char × List Char) := do
  let (n, rest) ← Text.hexDigits? 4 s
  if isHighHalf n then
    match rest with
    | '\\' :: 'u' :: rest =>
      let (low, rest) ← Text.hexDigits? 4 rest
      if isLowHalf low then
        let c ← Text.character? (0x10000 + (n - 0xD800) * 0x400 + (low - 0xDC00))
        return (c, rest)
      else none
    | _ => none
  else
    let c ← Text.character? n
    return (c, rest)

/-- The short escapes. -/
def shortEscapes : List (Char × Char) :=
  [('"', '"'), ('\\', '\\'), ('/', '/'), ('b', '\x08'), ('f', '\x0c'), ('n', '\n'), ('r', '\r'),
    ('t', '\t')]

/-- Reads the rest of a text in quotes; one character is read for each unit of `fuel`. -/
def text? : Nat → List Char → List Char → Option (String × List Char)
  | 0, _, _ => none
  | fuel + 1, read, s =>
    match s with
    | '"' :: rest => some (String.ofList read.reverse, rest)
    | '\\' :: 'u' :: rest =>
      match unicode? rest with
      | some (c, rest) => text? fuel (c :: read) rest
      | none => none
    | '\\' :: c :: rest =>
      match shortEscapes.lookup c with
      | some c => text? fuel (c :: read) rest
      | none => none
    | c :: rest => if c < ' ' then none else text? fuel (c :: read) rest
    | [] => none

/-- Is it a number as JSON has them: no sign but a minus, no zeros in front, digits on both sides
of a point? -/
def isNumber (s : List Char) : Bool :=
  let s := match s with
    | '-' :: rest => rest
    | _ => s
  let whole := s.takeWhile Char.isDigit
  let rest := s.drop whole.length
  let (pointed, part, rest) := match rest with
    | '.' :: rest =>
      let part := rest.takeWhile Char.isDigit
      (true, part, rest.drop part.length)
    | _ => (false, [], rest)
  !whole.isEmpty && (whole.length == 1 || whole.head? != some '0') && (!pointed || !part.isEmpty)
    && (Binary64.readExponent? rest).isSome

/-- Is the number within 64 bits with a sign? -/
def isShort (n : Int) : Bool := -(Text.signedLimit : Int) ≤ n && n < Text.signedLimit

/-- The value of a number. One that is too large is none. -/
def number? (s : List Char) : Option Value :=
  if !isNumber s then none
  else
    let whole : Option Int := match s with
      | '-' :: digits => (Text.readDigits? digits).map fun n => -(n : Int)
      | digits => (Text.readDigits? digits).map fun n => (n : Int)
    match whole.filter isShort with
    | some n => if n = 0 ∧ s.head? = some '-' then some (.float (.finite true 0 0)) else some (.int n)
    | none =>
      match Binary64.read? s with
      | some (.finite negative m e) => some (.float (.finite negative m e))
      | _ => none

/-- The words that stand for values. -/
def words : List (String × Value) := [("true", .bool true), ("false", .bool false), ("null", .null)]

/-- Reads a number or a word. -/
def simple? (s : List Char) : Option (Value × List Char) :=
  let token := s.takeWhile fun c => c.isAlphanum || c == '-' || c == '+' || c == '.'
  let rest := s.drop token.length
  match words.lookup (String.ofList token) with
  | some value => some (value, rest)
  | none => (number? token).map (·, rest)

mutual

/-- Reads a value with blanks in front. -/
def value? (fuel : Nat) (s : List Char) : Option (Value × List Char) :=
  match fuel with
  | 0 => none
  | fuel + 1 =>
    match skip s with
    | '"' :: rest => (text? (rest.length + 1) [] rest).map fun (t, rest) => (.text t, rest)
    | '[' :: rest =>
      match skip rest with
      | ']' :: rest => some (.list [], rest)
      | _ => (items? fuel [] rest).map fun (items, rest) => (.list items, rest)
    | '\x7b' :: rest =>
      match skip rest with
      | '\x7d' :: rest => some (.table [], rest)
      | _ => (entries? fuel [] rest).map fun (entries, rest) => (.table entries, rest)
    | s => simple? s

/-- Reads the items that are left of a list, and its end. -/
def items? (fuel : Nat) (read : List Value) (s : List Char) : Option (List Value × List Char) :=
  match fuel with
  | 0 => none
  | fuel + 1 =>
    match value? fuel s with
    | none => none
    | some (value, rest) =>
      match skip rest with
      | ',' :: rest => items? fuel (value :: read) rest
      | ']' :: rest => some ((value :: read).reverse, rest)
      | _ => none

/-- Reads the entries that are left of a table, and its end. -/
def entries? (fuel : Nat) (read : List (String × Value)) (s : List Char) :
    Option (List (String × Value) × List Char) :=
  match fuel with
  | 0 => none
  | fuel + 1 =>
    match skip s with
    | '"' :: rest =>
      match text? (rest.length + 1) [] rest with
      | none => none
      | some (key, rest) =>
        match skip rest with
        | ':' :: rest =>
          match value? fuel rest with
          | none => none
          | some (value, rest) =>
            let read := (key, value) :: read.filter fun entry => entry.1 != key
            match skip rest with
            | ',' :: rest => entries? fuel read rest
            | '\x7d' :: rest => some (read.reverse, rest)
            | _ => none
        | _ => none
    | _ => none

end

/-- Reads a text that holds one value and nothing else. -/
def read? (text : String) : Option Value :=
  match value? (text.length + 1) text.toList with
  | some (value, rest) => if (skip rest).isEmpty then some value else none
  | none => none

end DavGateway.Json
