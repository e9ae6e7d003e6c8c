import DavGateway.Settings.Value
import DavGateway.Text.Blank
import DavGateway.Text.Escape
import DavGateway.Text.Split

/-!
# YAML

Reads settings that are written in YAML: block and flow collections, plain and quoted scalars,
scalars in blocks, anchors and aliases. A text is read line by line. The column at which a line
begins says which collection it belongs to; a plain scalar stands for a number, a truth value or
null if it looks like one.
-/

namespace DavGateway.Yaml

/-! ## Lines -/

/-- The lines of a text. -/
def lines (text : String) : List (List Char) :=
  (Text.fields '\n' text.toList).map fun line =>
    if line.getLast? = some '\r' then line.dropLast else line

/-- Is it a space or a tab? -/
def isSpace (c : Char) : Bool := c == ' ' || c == '\t'

/-- Does a word end here? -/
def endsHere (s : List Char) : Bool := s.head?.all isSpace

/-- Does a line hold nothing but a comment? -/
def isIdle (s : List Char) : Bool :=
  match s.dropWhile isSpace with
  | [] => true
  | c :: _ => c == '#'

/-- A place in a text: the column, the rest of the line, and the lines below it. The values under
anchors are kept with it, and so is the margin: the first column behind that of the innermost block
collection. -/
structure Cursor where
  column : Nat
  here : List Char
  below : List (List Char)
  anchors : List (String × Value) := []
  margin : Nat := 0

/-- How far a line is indented. A tab in front of the column of the innermost block collection stops
the indentation, and nothing can begin with it. -/
def indentOf (margin : Nat) (line : List Char) : Nat :=
  let spaces := (line.takeWhile (· == ' ')).length
  if spaces + 1 < margin then spaces else (line.takeWhile isSpace).length

/-- The first place of the next line that is not idle. -/
def Cursor.nextLine (c : Cursor) : Cursor :=
  match c.below.dropWhile isIdle with
  | [] => { c with column := 0, here := [], below := [] }
  | line :: below =>
    let indent := indentOf c.margin line
    { c with column := indent, here := line.drop indent, below := below }

/-- Is the place in front of the innermost block collection? -/
def Cursor.isOutside (c : Cursor) : Bool := c.column + 1 < c.margin

/-- The place after `n` characters of the line. -/
def Cursor.forward (c : Cursor) (n : Nat) : Cursor :=
  { c with column := c.column + n, here := c.here.drop n }

/-- The place after the spaces. -/
def Cursor.skipSpaces (c : Cursor) : Cursor := c.forward (c.here.takeWhile isSpace).length

/-- Is the text read to its end? -/
def Cursor.isAtEnd (c : Cursor) : Bool := c.here.isEmpty && c.below.isEmpty

/-- Is there nothing left on the line but a comment, with a space in front of it? -/
def Cursor.isLineDone (c : Cursor) : Bool :=
  match c.here with
  | [] => true
  | s :: rest => isSpace s && isIdle rest

/-- The next line, if the rest of this one is done. -/
def Cursor.endLine? (c : Cursor) : Option Cursor := if c.isLineDone then some c.nextLine else none

/-- The place after spaces, comments and line breaks. -/
def Cursor.skipAll (c : Cursor) : Cursor :=
  if c.isLineDone then
    let c := c.nextLine
    c.skipSpaces
  else c.skipSpaces

/-! ## Plain scalars -/

/-- Reads a whole number in a base, with a sign or without. -/
def based? (base : Nat) (s : List Char) : Option Int :=
  let (negative, digits) := match s with
    | '-' :: rest => (true, rest)
    | '+' :: rest => (false, rest)
    | _ => (false, s)
  let n : Option Nat := if digits.isEmpty then none
    else digits.foldlM (fun n c => ((Text.hexValue? c).filter (· < base)).map (n * base + ·)) 0
  (n.map fun (n : Nat) => if negative then -(n : Int) else (n : Int)).filter fun n =>
    -(Text.signedLimit : Int) ≤ n && n < Text.signedLimit

/-- The whole number that a plain scalar stands for. -/
def int? (s : List Char) : Option Int :=
  match s with
  | '0' :: 'x' :: digits => based? 16 digits
  | '0' :: 'o' :: digits => based? 8 digits
  | '+' :: digits => based? 10 digits
  | _ => based? 10 s

/-- The spellings of what is infinite or no number. They are numbers that cannot be read. -/
def unreadable : List String :=
  [".inf", ".Inf", ".INF", "+.inf", "+.Inf", "+.INF", "-.inf", "-.Inf", "-.INF", ".nan", ".NaN",
    ".NAN"]

/-- The value of a plain scalar. -/
def plain? (s : List Char) : Option Value :=
  let word := String.ofList s
  match int? s with
  | some n => some (.int n)
  | none =>
    if word = "~" ∨ word = "null" then some .null
    else if word = "true" then some (.bool true)
    else if word = "false" then some (.bool false)
    else if unreadable.contains word then none
    else match Binary64.read? s with
      | some x => some (.float x)
      | none => some (.text word)

/-- The key that a value is, if it can be one. -/
def key? : Value → Option String
  | .text s => some s
  | .int n => some (toString n)
  | _ => none

/-- Is it a character of the brackets and commas of flow collections? -/
def isFlowMark (c : Char) : Bool := ",[]\x7b\x7d".toList.contains c

/-- Can a plain scalar begin here? -/
def beginsPlain (flow : Bool) (s : List Char) : Bool :=
  match s with
  | [] => false
  | c :: rest =>
    if c = '-' ∨ c = '?' ∨ c = ':' then !endsHere rest && !(flow && rest.head?.any isFlowMark)
    else !isSpace c && !(",[]\x7b\x7d#&*!|>'\"%@\x60".toList.contains c)

/-- The characters of a plain scalar on one line, in reverse, with the spaces behind them. -/
def plainLine (flow : Bool) : List Char → List Char → List Char
  | read, [] => read
  | read, c :: rest =>
    if c = ':' ∧ (endsHere rest ∨ (flow ∧ rest.head?.any isFlowMark)) then read
    else if c = '#' ∧ read.head?.all isSpace then read
    else if flow ∧ isFlowMark c then read
    else plainLine flow (c :: read) rest

/-- Reads the part of a plain scalar that is on this line. -/
def plainPart (flow : Bool) (c : Cursor) : List Char × Cursor :=
  let read := plainLine flow [] c.here
  let part := (read.dropWhile isSpace).reverse
  (part, c.forward part.length)

/-- Two parts of a scalar with `breaks` line breaks between them: one is a space, and of more the
first one is dropped. -/
def fold (breaks : Nat) : List Char := if breaks ≤ 1 then [' '] else List.replicate (breaks - 1) '\n'

/-- Reads a plain scalar that can go on in the next lines, as long as these begin at the column
`least` or behind it. -/
def plainText (flow : Bool) (least : Nat) : Nat → Cursor → List Char × Cursor
  | 0, c => ([], c)
  | fuel + 1, c =>
    let (part, c) := plainPart flow c
    if !c.here.all isSpace then (part, c)
    else
      let blanks := (c.below.takeWhile fun line => line.all isSpace).length
      match c.below.drop blanks with
      | [] => (part, c)
      | line :: below =>
        let indent := (line.takeWhile (· == ' ')).length
        let here := line.dropWhile isSpace
        if indent < least ∨ here.head? = some '#' ∨ (flow ∧ here.head?.any isFlowMark)
            ∨ (flow ∧ !beginsPlain flow here) then (part, c)
        else
          let next := { c with column := line.length - here.length, here := here, below := below }
          let (more, c) := plainText flow least fuel next
          (part ++ fold (blanks + 1) ++ more, c)

/-! ## Quoted scalars -/

/-- The short escapes. -/
def shortEscapes : List (Char × Char) :=
  [('0', '\x00'), ('a', '\x07'), ('b', '\x08'), ('t', '\t'), ('\t', '\t'), ('n', '\n'),
    ('v', '\x0b'), ('f', '\x0c'), ('r', '\r'), ('e', '\x1b'), (' ', ' '), ('"', '"'), ('/', '/'),
    ('\\', '\\'), ('N', '\u0085'), ('_', '\u00a0'), ('L', '\u2028'), ('P', '\u2029')]

/-- Reads what follows a backslash. -/
def escape? (s : List Char) : Option (Char × List Char) :=
  match s with
  | 'x' :: rest => Text.numbered? 2 rest
  | 'u' :: rest => Text.numbered? 4 rest
  | 'U' :: rest => Text.numbered? 8 rest
  | c :: rest => (shortEscapes.lookup c).map (·, rest)
  | [] => none

/-- Reads the rest of a quoted scalar. `read` holds what was read, in reverse. -/
def quoted? (double : Bool) : Nat → List Char → Cursor → Option (List Char × Cursor)
  | 0, _, _ => none
  | fuel + 1, read, c =>
    let onNextLine (read : List Char) (lines : List (List Char)) : Option (List Char × Cursor) :=
      match lines with
      | [] => none
      | line :: below =>
        let indent := indentOf c.margin line
        let next := { c with column := indent, here := line.drop indent, below := below }
        if next.isOutside then none else quoted? double fuel read next
    match c.here with
    | [] =>
      let blanks := (c.below.takeWhile fun line => line.all isSpace).length
      onNextLine ((fold (blanks + 1)).reverse ++ read.dropWhile isSpace) (c.below.drop blanks)
    | '\'' :: '\'' :: _ =>
      if double then quoted? double fuel ('\'' :: read) (c.forward 1)
      else quoted? double fuel ('\'' :: read) (c.forward 2)
    | ['\\'] => if double then onNextLine read c.below else quoted? double fuel ('\\' :: read) (c.forward 1)
    | '\\' :: rest =>
      if double then
        match escape? rest with
        | some (e, left) => quoted? double fuel (e :: read) (c.forward (1 + rest.length - left.length))
        | none => none
      else quoted? double fuel ('\\' :: read) (c.forward 1)
    | q :: _ =>
      if q = (if double then '"' else '\'') then some (read.reverse, c.forward 1)
      else quoted? double fuel (q :: read) (c.forward 1)

/-- Reads a quoted scalar. -/
def quotedText? (fuel : Nat) (c : Cursor) : Option (String × Cursor) :=
  match c.here with
  | '"' :: _ => (quoted? true fuel [] (c.forward 1)).map fun (s, c) => (String.ofList s, c)
  | '\'' :: _ => (quoted? false fuel [] (c.forward 1)).map fun (s, c) => (String.ofList s, c)
  | _ => none

/-! ## Scalars in blocks -/

/-- The lines of a block that is indented by `indent`. Lines with spaces alone belong to it. -/
def blockLines (indent : Nat) : List (List Char) → List (List Char) × List (List Char)
  | [] => ([], [])
  | line :: below =>
    let own := (line.takeWhile (· == ' ')).length
    if own < indent ∧ own < line.length then ([], line :: below)
    else
      let (block, rest) := blockLines indent below
      (line.drop indent :: block, rest)

/-- Joins the lines of a folded block: a line break between two lines that begin with text is a
space, unless there are empty lines between them. -/
def foldLines : List (List Char) → List Char
  | [] => []
  | [line] => line
  | line :: next :: rest =>
    let keeps := line.head?.all isSpace || next.head?.any isSpace
    let blanks := next.isEmpty
    if blanks then
      line ++ (if line.head?.any isSpace then ['\n'] else []) ++ foldLines (next :: rest)
        ++ (if line.isEmpty then ['\n'] else [])
    else line ++ (if keeps then ['\n'] else [' ']) ++ foldLines (next :: rest)

/-- Reads a scalar in a block, from its mark on. -/
def blockText? (least : Nat) (c : Cursor) : Option (String × Cursor) :=
  match c.here with
  | [] => none
  | mark :: rest =>
    let marks := rest.takeWhile fun c => c.isDigit || c == '+' || c == '-'
    let digit := (marks.find? Char.isDigit).map Text.digitValue
    if !(c.forward (1 + marks.length)).isLineDone || 2 < marks.length then none
    else
      let first := (c.below.find? fun line => !line.all isSpace).getD []
      let found := (first.takeWhile (· == ' ')).length
      let indent := match digit with
        | some n => least - 1 + n
        | none => max found least
      let (block, below) := blockLines indent c.below
      let text := (block.reverse.dropWhile List.isEmpty).reverse
      let tail := block.length - text.length
      let joined := if mark = '>' then foldLines text else (text.intersperse ['\n']).flatten
      let ending := if text.isEmpty then (if marks.contains '+' then tail else 0)
        else if marks.contains '-' then 0
        else if marks.contains '+' then tail + 1 else 1
      let after := { c with column := 0, here := [], below := below }
      some (String.ofList (joined ++ List.replicate ending '\n'), after.nextLine)

/-! ## Collections -/

/-- Adds an entry, unless its key is there already. -/
def addEntry (key : Value) (value : Value) (entries : List (String × Value)) :
    Option (List (String × Value)) := do
  let key ← key? key
  if (entries.lookup key).isSome then none else some ((key, value) :: entries)

/-- The name behind the mark of an anchor, an alias or a tag. -/
def markName (c : Cursor) : List Char × Cursor :=
  let name := (c.here.drop 1).takeWhile fun x => !isSpace x && !isFlowMark x
  (name, c.forward (1 + name.length))

/-- The value under an alias. -/
def alias? (c : Cursor) : Option (Value × Cursor) :=
  let (name, c) := markName c
  (c.anchors.lookup (String.ofList name)).map (·, c)

/-- Keeps a value under an anchor. -/
def keep (name : List Char) (value : Value) (c : Cursor) : Cursor :=
  { c with anchors := (String.ofList name, value) :: c.anchors }

/-- The value of a plain scalar with a tag. -/
def tagged? (tag s : List Char) : Option Value :=
  let word := String.ofList s
  match String.ofList tag with
  | "!bool" => if word = "true" then some (.bool true)
    else if word = "false" then some (.bool false) else some .null
  | "!int" => some (((based? 10 s).map .int).getD .null)
  | "!float" => if unreadable.contains word then none
    else some (((Binary64.read? s).map .float).getD .null)
  | "!null" => some .null
  | _ => some (.text word)

/-- Are there only tabs between a colon and the word behind it? -/
def isTabbed (s : List Char) : Bool :=
  match s.dropWhile (· == '\t') with
  | [] => false
  | c :: _ => s.head? == some '\t' && (c.isAlphanum || c == '_' || c == '-')

mutual

/-- Reads a value inside a flow collection. -/
def flow? (fuel : Nat) (c : Cursor) : Option (Value × Cursor) :=
  match fuel with
  | 0 => none
  | fuel + 1 =>
    if c.isOutside then none
    else match c.here with
    | '[' :: _ => (flowItems? fuel [] (c.forward 1).skipAll).map fun (v, c) => (.list v, c)
    | '\x7b' :: _ => (flowEntries? fuel [] (c.forward 1).skipAll).map fun (v, c) => (.table v, c)
    | '"' :: _ => (quotedText? fuel c).map fun (s, c) => (.text s, c)
    | '\'' :: _ => (quotedText? fuel c).map fun (s, c) => (.text s, c)
    | '*' :: _ => alias? c
    | '&' :: _ =>
      let (name, c) := markName c
      (flow? fuel c.skipAll).map fun (v, c) => (v, keep name v c)
    | '!' :: _ =>
      let (tag, c) := markName c
      let c := c.skipAll
      if c.margin ≤ c.column && beginsPlain true c.here then
        let (s, c) := plainText true 0 fuel c
        (tagged? tag s).map (·, c)
      else flow? fuel c
    | s =>
      if c.margin ≤ c.column && beginsPlain true s then
        let (s, c) := plainText true 0 fuel c
        (plain? s).map (·, c)
      else none

/-- Reads the items that are left of a flow sequence. An item with a colon is a table of one
entry. -/
def flowItems? (fuel : Nat) (read : List Value) (c : Cursor) : Option (List Value × Cursor) :=
  match fuel with
  | 0 => none
  | fuel + 1 =>
    if c.isOutside then none
    else match c.here with
    | ']' :: _ => some (read.reverse, c.forward 1)
    | _ =>
      match flow? fuel c with
      | none => none
      | some (value, c) =>
        match flowAfterKey? fuel value c.skipAll with
        | none => none
        | some (pair, c) =>
          let item := match pair with
            | some (entries, _) => .table entries
            | none => value
          match c.here with
          | ',' :: _ => flowItems? fuel (item :: read) (c.forward 1).skipAll
          | ']' :: _ => some ((item :: read).reverse, c.forward 1)
          | _ => none

/-- Reads a colon and a value behind a key, if there is a colon. The entry is given as a list of
one, with the value. -/
def flowAfterKey? (fuel : Nat) (key : Value) (c : Cursor) :
    Option (Option (List (String × Value) × Value) × Cursor) :=
  match fuel with
  | 0 => none
  | fuel + 1 =>
    match c.here with
    | ':' :: rest =>
      let c := (c.forward 1).skipAll
      if c.isOutside || isTabbed rest then none
      else match c.here with
      | ',' :: _ => (addEntry key .null []).map fun e => (some (e, .null), c)
      | ']' :: _ => (addEntry key .null []).map fun e => (some (e, .null), c)
      | '\x7d' :: _ => (addEntry key .null []).map fun e => (some (e, .null), c)
      | _ =>
        match flow? fuel c with
        | none => none
        | some (value, c) => (addEntry key value []).map fun e => (some (e, value), c.skipAll)
    | _ => some (none, c)

/-- Reads the entries that are left of a flow mapping. -/
def flowEntries? (fuel : Nat) (read : List (String × Value)) (c : Cursor) :
    Option (List (String × Value) × Cursor) :=
  match fuel with
  | 0 => none
  | fuel + 1 =>
    if c.isOutside then none
    else match c.here with
    | '\x7d' :: _ => some (read.reverse, c.forward 1)
    | _ =>
      match flow? fuel c with
      | none => none
      | some (key, c) =>
        match flowAfterKey? fuel key c.skipAll with
        | none => none
        | some (pair, c) =>
          let value := match pair with
            | some (_, value) => value
            | none => .null
          match addEntry key value read with
          | none => none
          | some read =>
            match c.here with
            | ',' :: _ => flowEntries? fuel read (c.forward 1).skipAll
            | '\x7d' :: _ => some (read.reverse, c.forward 1)
            | _ => none

end

/-- Reads a key and the colon behind it, if there is one on this line. -/
def keyHere? (c : Cursor) : Option (Value × Cursor) :=
  let read : Option (Value × Cursor) :=
    match c.here with
    | '"' :: _ => (quotedText? (c.here.length + 1) { c with below := [] }).map fun (s, k) => (.text s, k)
    | '\'' :: _ => (quotedText? (c.here.length + 1) { c with below := [] }).map fun (s, k) => (.text s, k)
    | '*' :: _ => alias? c
    | s =>
      if beginsPlain false s then
        let (s, c) := plainPart false c
        (plain? s).map (·, c)
      else none
  match read with
  | none => none
  | some (key, k) =>
    let k := k.skipSpaces
    match k.here with
    | ':' :: rest =>
      if endsHere rest && !isTabbed rest then some (key, { k.forward 1 with below := c.below })
      else none
    | _ => none

/-- Is there an item of a block sequence here? -/
def isItem (s : List Char) : Bool :=
  match s with
  | '-' :: rest => endsHere rest
  | _ => false

mutual

/-- Reads a node that begins here, and the rest of its last line. The lines of the node begin at
the column `least` or behind it; a block collection can begin here only if `opens`. -/
def node? (fuel least : Nat) (opens : Bool) (c : Cursor) : Option (Value × Cursor) :=
  match fuel with
  | 0 => none
  | fuel + 1 =>
    if isItem c.here then
      if opens then (sequence? fuel c.column [] c).map fun (v, c) => (.list v, c) else none
    else match keyHere? c with
      | some _ =>
        if opens then (mapping? fuel c.column [] c).map fun (v, c) => (.table v, c) else none
      | none =>
        match c.here with
        | '&' :: _ =>
          let (name, c) := markName c
          (nodeBehind? fuel least opens c).map fun (v, c) => (v, keep name v c)
        | '!' :: _ =>
          let (tag, c) := markName c
          let next := c.skipSpaces
          if beginsPlain false next.here && (keyHere? next).isNone && !isItem next.here then
            let (s, c) := plainText false least fuel next
            match tagged? tag s with
            | some v => c.endLine?.map fun c => (v, c)
            | none => none
          else nodeBehind? fuel least opens c
        | '*' :: _ =>
          match alias? c with
          | some (v, c) => c.endLine?.map fun c => (v, c)
          | none => none
        | '|' :: _ => (blockText? least c).map fun (s, c) => (.text s, c)
        | '>' :: _ => (blockText? least c).map fun (s, c) => (.text s, c)
        | s =>
          if beginsPlain false s then
            let (s, c) := plainText false least fuel c
            match plain? s with
            | some v => c.endLine?.map fun c => (v, c)
            | none => none
          else
            match flow? fuel c with
            | some (v, c) => c.endLine?.map fun c => (v, c)
            | none => none

/-- Reads a node behind a mark on this line, or in the lines below. -/
def nodeBehind? (fuel least : Nat) (opens : Bool) (c : Cursor) : Option (Value × Cursor) :=
  match fuel with
  | 0 => none
  | fuel + 1 =>
    if c.isLineDone then nodeBelow? fuel least c.nextLine
    else if endsHere c.here then node? fuel least opens c.skipSpaces
    else none

/-- Reads a node in the lines below, or nothing if they begin in front of the column `least`. -/
def nodeBelow? (fuel least : Nat) (c : Cursor) : Option (Value × Cursor) :=
  match fuel with
  | 0 => none
  | fuel + 1 =>
    if c.isAtEnd || c.column < least then some (.null, c) else node? fuel least true c

/-- Reads the items that are left of a block sequence at a column. -/
def sequence? (fuel column : Nat) (read : List Value) (c : Cursor) :
    Option (List Value × Cursor) :=
  match fuel with
  | 0 => none
  | fuel + 1 =>
    if c.isAtEnd || c.column < column then some (read.reverse, c)
    else if column < c.column then none
    else if !isItem c.here then some (read.reverse, c)
    else
      let c := { c.forward 1 with margin := column + 1 }
      if (c.here.takeWhile isSpace).contains '\t' && isItem c.skipSpaces.here then none
      else match nodeBehind? fuel (column + 1) true c with
      | some (value, c) => sequence? fuel column (value :: read) c
      | none => none

/-- Reads the entries that are left of a block mapping at a column. A sequence can stand right
below its key. -/
def mapping? (fuel column : Nat) (read : List (String × Value)) (c : Cursor) :
    Option (List (String × Value) × Cursor) :=
  match fuel with
  | 0 => none
  | fuel + 1 =>
    if c.isAtEnd || c.column < column then some (read.reverse, c)
    else if column < c.column then none
    else match keyHere? c with
      | none => none
      | some (key, c) =>
        let c := { c with margin := column + 1 }
        let next := c.nextLine
        let value :=
          if c.isLineDone && next.column == column && isItem next.here then
            (sequence? fuel column [] next).map fun (v, c) => (.list v, c)
          else nodeBehind? fuel (column + 1) false c
        match value with
        | none => none
        | some (value, c) =>
          match addEntry key value read with
          | some read => mapping? fuel column read c
          | none => none

end

/-! ## Documents -/

/-- Does a line begin with a mark of three characters, such as that of a new document? -/
def isMark (mark : String) (line : List Char) : Bool :=
  mark.toList.isPrefixOf line && endsHere (line.drop 3)

/-- The documents of a text. `current` holds the lines of the document that is being read, in
reverse, if there is one. -/
def documents : Option (List (List Char)) → List (List Char) → List (List (List Char))
  | current, [] => (current.map List.reverse).toList
  | current, line :: below =>
    if isMark "---" line then
      (current.map List.reverse).toList
        ++ documents (some [[' ', ' ', ' '] ++ line.drop 3]) below
    else if isMark "..." line then (current.map List.reverse).toList ++ documents none below
    else match current with
      | some read => documents (some (line :: read)) below
      | none =>
        if isIdle line || line.head? == some '%' then documents none below
        else documents (some [line]) below

/-- Reads the lines of a document. -/
def document? (lines : List (List Char)) : Option Value :=
  let size := 3 * (lines.foldl (fun n line => n + line.length + 1) 0) + 10
  let start : Cursor := { column := 0, here := [], below := lines }
  match nodeBelow? size 0 start.nextLine with
  | some (value, c) => if c.isAtEnd then some value else none
  | none => none

/-- Reads a text. Nothing at all is an empty table, and there is at most one document. -/
def read? (text : String) : Option Value :=
  match documents none (lines text) with
  | [] => some (.table [])
  | [lines] => document? lines
  | _ => none

end DavGateway.Yaml
