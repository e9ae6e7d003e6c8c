import DavGateway.Calendar
import DavGateway.Settings.Value
import DavGateway.Text.Escape

/-!
# TOML

Reads settings that are written in TOML. What the lines define is collected in a tree that
remembers how each table came about, because a table is defined only once: by a header, by dotted
keys, or as a value. Dates and times become texts.
-/

namespace DavGateway.Toml

/-! ## Characters -/

/-- The text without spaces and tabs in front. -/
def skipSpace (s : List Char) : List Char := s.dropWhile fun c => c = ' ' ∨ c = '\t'

/-- The text without a comment in front. -/
def skipComment (s : List Char) : List Char :=
  match s with
  | '#' :: rest => rest.dropWhile (· != '\n')
  | _ => s

/-- The text behind a line break. -/
def lineBreak? (s : List Char) : Option (List Char) :=
  match s with
  | '\n' :: rest => some rest
  | '\r' :: '\n' :: rest => some rest
  | _ => none

/-- The text without spaces, comments and line breaks in front. -/
def skipLines : Nat → List Char → List Char
  | 0, s => s
  | fuel + 1, s =>
    let s := skipComment (skipSpace s)
    match lineBreak? s with
    | some rest => skipLines fuel rest
    | none => s

/-- What follows the rest of a line, which holds nothing but a comment. -/
def endLine? (s : List Char) : Option (List Char) :=
  let s := skipComment (skipSpace s)
  if s.isEmpty then some [] else lineBreak? s

/-! ## Texts -/

/-- The short escapes. -/
def shortEscapes : List (Char × Char) :=
  [('b', '\x08'), ('t', '\t'), ('n', '\n'), ('f', '\x0c'), ('r', '\r'), ('"', '"'), ('\\', '\\')]

/-- Reads what follows a backslash. -/
def escape? (s : List Char) : Option (Char × List Char) :=
  match s with
  | 'u' :: rest => Text.numbered? 4 rest
  | 'U' :: rest => Text.numbered? 8 rest
  | c :: rest => (shortEscapes.lookup c).map (·, rest)
  | [] => none

/-- Can the character not stand in a text on one line? -/
def isControl (c : Char) : Bool := (c < ' ' && c != '\t') || c == '\x7f'

/-- Reads the rest of a text on one line, up to `quote`. -/
def shortText? (quote : Char) (escapes : Bool) :
    Nat → List Char → List Char → Option (String × List Char)
  | 0, _, _ => none
  | fuel + 1, read, s =>
    match s with
    | [] => none
    | c :: rest =>
      if c = quote then some (String.ofList read.reverse, rest)
      else if escapes && c == '\\' then
        match escape? rest with
        | some (c, rest) => shortText? quote escapes fuel (c :: read) rest
        | none => none
      else if isControl c then none
      else shortText? quote escapes fuel (c :: read) rest

/-- Reads the rest of a text on several lines, up to three times `quote`. One or two quotes in
front of these belong to the text, and a backslash at the end of a line joins it to the next. -/
def longText? (quote : Char) (escapes : Bool) :
    Nat → List Char → List Char → Option (String × List Char)
  | 0, _, _ => none
  | fuel + 1, read, s =>
    match s with
    | [] => none
    | c :: rest =>
      if c = quote then
        let quotes := s.takeWhile (· == quote)
        if quotes.length < 3 then longText? quote escapes fuel (c :: read) rest
        else if 5 < quotes.length then none
        else
          some (String.ofList ((quotes.drop 3) ++ read).reverse, s.drop quotes.length)
      else if escapes && c == '\\' then
        if ((lineBreak? (skipSpace rest)).isSome) then
          longText? quote escapes fuel read
            (rest.dropWhile fun c => c = ' ' ∨ c = '\t' ∨ c = '\n' ∨ c = '\r')
        else match escape? rest with
          | some (c, rest) => longText? quote escapes fuel (c :: read) rest
          | none => none
      else match lineBreak? s with
        | some rest => longText? quote escapes fuel ('\n' :: read) rest
        | none => if isControl c then none else longText? quote escapes fuel (c :: read) rest

/-- The text without the line break in front. -/
def dropBreak (s : List Char) : List Char := (lineBreak? s).getD s

/-- Reads a text in quotes on one line. -/
def quoted? (s : List Char) : Option (String × List Char) :=
  match s with
  | '"' :: rest => shortText? '"' true (rest.length + 1) [] rest
  | '\'' :: rest => shortText? '\'' false (rest.length + 1) [] rest
  | _ => none

/-- Reads a text in quotes. -/
def text? (s : List Char) : Option (String × List Char) :=
  match s with
  | '"' :: '"' :: '"' :: rest => longText? '"' true (rest.length + 1) [] (dropBreak rest)
  | '\'' :: '\'' :: '\'' :: rest => longText? '\'' false (rest.length + 1) [] (dropBreak rest)
  | _ => quoted? s

/-! ## Keys -/

/-- Can the character stand in a key without quotes? -/
def isKeyChar (c : Char) : Bool := c.isAlphanum || c == '_' || c == '-'

/-- Reads a key without dots. -/
def simpleKey? (s : List Char) : Option (String × List Char) :=
  match quoted? s with
  | some read => some read
  | none =>
    let key := s.takeWhile isKeyChar
    if key.isEmpty then none else some (String.ofList key, s.drop key.length)

/-- Reads a key, which can have dots in it. -/
def key? : Nat → List Char → Option (List String × List Char)
  | 0, _ => none
  | fuel + 1, s => do
    let (first, rest) ← simpleKey? (skipSpace s)
    match skipSpace rest with
    | '.' :: rest =>
      let (others, rest) ← key? fuel rest
      return (first :: others, rest)
    | rest => return ([first], rest)

/-! ## Numbers and times -/

/-- Removes the underscores of a number, each of which stands between two digits. -/
def plain? (isDigit : Char → Bool) : List Char → Option (List Char)
  | a :: '_' :: b :: rest =>
    if isDigit a && isDigit b then (plain? isDigit (b :: rest)).map (a :: ·) else none
  | '_' :: _ => none
  | [_, '_'] => none
  | a :: rest => (plain? isDigit rest).map (a :: ·)
  | [] => some []

/-- The value of digits in a base. -/
def based? (base : Nat) (s : List Char) : Option Nat := do
  let s ← plain? (fun c => (Text.hexValue? c).any (· < base)) s
  if s.isEmpty then none
  else s.foldlM (fun n c => ((Text.hexValue? c).filter (· < base)).map (n * base + ·)) 0

/-- Reads a whole number in base ten: no zeros in front. -/
def decimal? (s : List Char) : Option Nat := do
  let s ← plain? Char.isDigit s
  if 1 < s.length ∧ s.head? = some '0' then none else Text.readDigits? s

/-- The sign of a number, and the rest of it. -/
def sign (s : List Char) : Bool × List Char :=
  match s with
  | '-' :: rest => (true, rest)
  | '+' :: rest => (false, rest)
  | _ => (false, s)

/-- A whole number, if it has no more than 64 bits with its sign. -/
def int? (n : Int) : Option Value :=
  if -(Text.signedLimit : Int) ≤ n ∧ n < Text.signedLimit then some (.int n) else none

/-- Reads a whole number. -/
def integer? (s : List Char) : Option Value :=
  match s with
  | '0' :: 'x' :: digits => (based? 16 digits).bind fun n => int? n
  | '0' :: 'o' :: digits => (based? 8 digits).bind fun n => int? n
  | '0' :: 'b' :: digits => (based? 2 digits).bind fun n => int? n
  | _ =>
    let (negative, digits) := sign s
    (decimal? digits).bind fun n => int? (if negative then -(n : Int) else n)

/-- Reads a number that is not whole: digits on both sides of a point, an exponent, or a word. Digits
for a number above all others are refused. -/
def float? (s : List Char) : Option Value := do
  let (negative, s) := sign s
  if s = ['i', 'n', 'f'] then some (.float (.infinite negative))
  else if s = ['n', 'a', 'n'] then some (.float .nan)
  else
    let s ← plain? Char.isDigit s
    let whole := s.takeWhile Char.isDigit
    let rest := s.drop whole.length
    let part := match rest with
      | '.' :: rest => some (rest.takeWhile Char.isDigit)
      | _ => none
    if whole.isEmpty || rest.isEmpty || (whole.head? == some '0' && 1 < whole.length)
        || part == some [] then none
    else match Binary64.readUnsigned? negative s with
      | some (.infinite false) => none
      | some x => some (.float x)
      | none => none

/-- Do the characters have the shape of a pattern, in which a zero stands for a digit? -/
def hasShape (shape : String) (s : List Char) : Bool :=
  shape.length == s.length
    && (shape.toList.zip s).all fun (p, c) => if p = '0' then c.isDigit else p == c

/-- The number in front that has `count` digits. -/
def digitsIn (count : Nat) (s : List Char) : Nat := Text.digitsValue (s.take count)

/-- Is it a day of the calendar? -/
def isDate (s : List Char) : Bool :=
  hasShape "0000-00-00" s
    && Date.isValid ⟨digitsIn 4 s, digitsIn 2 (s.drop 5), digitsIn 2 (s.drop 8)⟩

/-- Is it an hour of the day and a minute of the hour? -/
def isHourAndMinute (s : List Char) : Bool :=
  hasShape "00:00" s && digitsIn 2 s < 24 && digitsIn 2 (s.drop 3) < 60

/-- Reads a time of day: up to seconds, or parts of them. The zeros at the end of the parts are
left out. -/
def time? (s : List Char) : Option (List Char × List Char) :=
  let front := s.take 8
  let rest := s.drop 8
  if !hasShape "00:00:00" front || !isHourAndMinute (s.take 5) || 60 < digitsIn 2 (s.drop 6) then none
  else match rest with
    | '.' :: rest =>
      let part := rest.takeWhile Char.isDigit
      if part.isEmpty then none
      else
        let shown := ((part.take 9).reverse.dropWhile (· == '0')).reverse
        some (front ++ (if shown.isEmpty then [] else '.' :: shown), rest.drop part.length)
    | _ => some (front, rest)

/-- Reads the offset of a time. -/
def offset? (s : List Char) : Option (List Char) :=
  match s with
  | [] => some []
  | ['Z'] | ['z'] => some ['Z']
  | c :: rest =>
    if (c == '+' || c == '-') && isHourAndMinute rest then
      some ((if String.ofList rest = "00:00" then '+' else c) :: rest)
    else none

/-- Reads a date, a time or both. -/
def moment? (s : List Char) : Option Value :=
  if isDate (s.take 10) then
    let date := s.take 10
    match s.drop 10 with
    | [] => some (.text (String.ofList date))
    | c :: rest =>
      if c = 'T' ∨ c = 't' ∨ c = ' ' then do
        let (time, rest) ← time? rest
        let offset ← offset? rest
        return .text (String.ofList (date ++ 'T' :: time ++ offset))
      else none
  else match time? s with
    | some (time, []) => some (.text (String.ofList time))
    | _ => none

/-- The characters of numbers, times and words. -/
def isTokenChar (c : Char) : Bool := c.isAlphanum || "_+-.:".toList.contains c

/-- The token in front. A date and a time with a space between them are one. -/
def token (s : List Char) : List Char :=
  let first := s.takeWhile isTokenChar
  match s.drop first.length with
  | ' ' :: rest =>
    if hasShape "0000-00-00" first && hasShape "00:00:00" (rest.take 8) then
      first ++ ' ' :: rest.takeWhile isTokenChar
    else first
  | _ => first

/-- Reads a value that is one token. -/
def simple? (s : List Char) : Option (Value × List Char) :=
  let t := token s
  let value := if t = "true".toList then some (.bool true)
    else if t = "false".toList then some (.bool false)
    else match integer? t with
      | some n => some n
      | none => match float? t with
        | some x => some x
        | none => moment? t
  value.map (·, s.drop t.length)

/-! ## The tree of definitions -/

/-- How a table came about: by a header of its own, as a part of the headers of others, or by
dotted keys. -/
inductive Origin where
  | header
  | implied
  | dotted
deriving DecidableEq, Repr

/-- A part of the tree: a value, a table, or a list of tables by headers. -/
inductive Node where
  | leaf (value : Value)
  | table (origin : Origin) (entries : List (String × Node))
  | tables (items : List (List (String × Node)))
deriving Inhabited

/-- The entries of a table. -/
abbrev Nodes := List (String × Node)

/-- Puts a part under a key, at the place of the one that is there. -/
def putNode (key : String) (node : Node) : Nodes → Nodes
  | [] => [(key, node)]
  | entry :: rest => if entry.1 = key then (key, node) :: rest else entry :: putNode key node rest

mutual

/-- The value of a part of the tree. -/
def valueOf : Node → Value
  | .leaf value => value
  | .table _ entries => .table (valuesOf entries)
  | .tables items => .list (tablesOf items)

/-- The values of entries. -/
def valuesOf : List (String × Node) → List (String × Value)
  | [] => []
  | (key, node) :: rest => (key, valueOf node) :: valuesOf rest

/-- The values of a list of tables. -/
def tablesOf : List (List (String × Node)) → List Value
  | [] => []
  | entries :: rest => .table (valuesOf entries) :: tablesOf rest

end

/-- Defines a value under a dotted key. -/
def define (value : Value) : List String → Nodes → Option Nodes
  | [], _ => none
  | [key], nodes =>
    if (nodes.lookup key).isSome then none else some (putNode key (.leaf value) nodes)
  | key :: rest, nodes =>
    match nodes.lookup key with
    | none => (define value rest []).map fun inner => putNode key (.table .dotted inner) nodes
    | some (.table .dotted inner) =>
      (define value rest inner).map fun inner => putNode key (.table .dotted inner) nodes
    | some (.table .implied inner) =>
      (define value rest inner).map fun inner => putNode key (.table .implied inner) nodes
    | some _ => none

/-- Changes the table that the path of a header leads to: in a list of tables, the last one. -/
def atHeader (f : Nodes → Option Nodes) : List String → Nodes → Option Nodes
  | [], nodes => f nodes
  | key :: rest, nodes =>
    match nodes.lookup key with
    | none => (atHeader f rest []).map fun inner => putNode key (.table .implied inner) nodes
    | some (.table origin inner) =>
      (atHeader f rest inner).map fun inner => putNode key (.table origin inner) nodes
    | some (.tables items) =>
      match items.getLast? with
      | none => none
      | some inner =>
        (atHeader f rest inner).map fun inner =>
          putNode key (.tables (items.dropLast ++ [inner])) nodes
    | some (.leaf _) => none

/-- Defines a table by a header. -/
def openTable (key : String) (nodes : Nodes) : Option Nodes :=
  match nodes.lookup key with
  | none => some (putNode key (.table .header []) nodes)
  | some (.table .implied inner) => some (putNode key (.table .header inner) nodes)
  | some _ => none

/-- Adds a table to a list of tables. -/
def addTable (key : String) (nodes : Nodes) : Option Nodes :=
  match nodes.lookup key with
  | none => some (putNode key (.tables [[]]) nodes)
  | some (.tables items) => some (putNode key (.tables (items ++ [[]])) nodes)
  | some _ => none

/-- The path of a header, its last key apart. -/
def splitLast : List String → Option (List String × String)
  | [] => none
  | [key] => some ([], key)
  | key :: rest => (splitLast rest).map fun (front, last) => (key :: front, last)

/-! ## Values and lines -/

mutual

/-- Reads a value. -/
def value? (fuel : Nat) (s : List Char) : Option (Value × List Char) :=
  match fuel with
  | 0 => none
  | fuel + 1 =>
    match s with
    | '"' :: _ => (text? s).map fun (t, rest) => (.text t, rest)
    | '\'' :: _ => (text? s).map fun (t, rest) => (.text t, rest)
    | '[' :: rest => (items? fuel [] rest).map fun (items, rest) => (.list items, rest)
    | '\x7b' :: rest =>
      match skipSpace rest with
      | '\x7d' :: rest => some (.table [], rest)
      | rest => (entries? fuel [] rest).map fun (nodes, rest) => (.table (valuesOf nodes), rest)
    | _ => simple? s

/-- Reads the items that are left of a list, and its end. -/
def items? (fuel : Nat) (read : List Value) (s : List Char) : Option (List Value × List Char) :=
  match fuel with
  | 0 => none
  | fuel + 1 =>
    match skipLines s.length s with
    | ']' :: rest => some (read.reverse, rest)
    | s =>
      match value? fuel s with
      | none => none
      | some (value, rest) =>
        match skipLines rest.length rest with
        | ',' :: rest => items? fuel (value :: read) rest
        | ']' :: rest => some ((value :: read).reverse, rest)
        | _ => none

/-- Reads the entries that are left of a table on one line, and its end. -/
def entries? (fuel : Nat) (read : Nodes) (s : List Char) : Option (Nodes × List Char) :=
  match fuel with
  | 0 => none
  | fuel + 1 =>
    match key? (s.length + 1) s with
    | some (key, '=' :: rest) =>
      match value? fuel (skipSpace rest) with
      | none => none
      | some (value, rest) =>
        match define value key read with
        | none => none
        | some read =>
          match skipSpace rest with
          | ',' :: rest => entries? fuel read rest
          | '\x7d' :: rest => some (read, rest)
          | _ => none
    | _ => none

end

/-- Reads the rest of a header, which ends with the given brackets, and defines what it names. -/
def header? (ending : List Char) (f : String → Nodes → Option Nodes) (s : List Char)
    (nodes : Nodes) : Option (List String × Nodes × List Char) := do
  let (path, rest) ← key? (s.length + 1) s
  let (front, last) ← splitLast path
  let rest ← if ending.isPrefixOf rest then some (rest.drop ending.length) else none
  let nodes ← atHeader (f last) front nodes
  return (path, nodes, rest)

/-- Reads lines below the table of the last header; one line is read for each unit of `fuel`. -/
def lines? : Nat → List String → Nodes → List Char → Option Nodes
  | 0, _, _, _ => none
  | fuel + 1, path, nodes, s =>
    match skipLines s.length s with
    | [] => some nodes
    | '[' :: '[' :: rest =>
      match header? [']', ']'] addTable rest nodes with
      | some (path, nodes, rest) => (endLine? rest).bind (lines? fuel path nodes)
      | none => none
    | '[' :: rest =>
      match header? [']'] openTable rest nodes with
      | some (path, nodes, rest) => (endLine? rest).bind (lines? fuel path nodes)
      | none => none
    | s =>
      match key? (s.length + 1) s with
      | some (key, '=' :: rest) =>
        match value? (rest.length + 2) (skipSpace rest) with
        | some (value, rest) =>
          match atHeader (define value key) path nodes with
          | some nodes => (endLine? rest).bind (lines? fuel path nodes)
          | none => none
        | none => none
      | _ => none

/-- Reads a text. -/
def read? (text : String) : Option Value :=
  (lines? (text.length + 1) [] [] text.toList).map fun nodes => .table (valuesOf nodes)

end DavGateway.Toml
