/-!
# File names of keys

A key is kept in one file of its pool's folder. The percent sign, the slash and a dot at the front
are written as escapes, so that the name is one component of a path and never begins with a dot:
such names are left to the store itself. `decode?` reads the three escapes at any place.
-/

namespace DavGateway.FileName

/-- One character of a key, as characters of its file name. -/
def escapeChar (c : Char) : List Char :=
  match c with
  | '%' => ['%', '2', '5']
  | '/' => ['%', '2', 'F']
  | _ => [c]

/-- The characters of the file name of a key. -/
def encodeChars : List Char → List Char
  | '.' :: rest => '%' :: '2' :: 'E' :: rest.flatMap escapeChar
  | s => s.flatMap escapeChar

/-- Takes the escapes back. -/
def unescape? : List Char → Option (List Char)
  | [] => some []
  | '%' :: '2' :: '5' :: rest => (unescape? rest).map ('%' :: ·)
  | '%' :: '2' :: 'F' :: rest => (unescape? rest).map ('/' :: ·)
  | '%' :: '2' :: 'E' :: rest => (unescape? rest).map ('.' :: ·)
  | c :: rest => if c = '%' then none else (unescape? rest).map (c :: ·)

/-- The characters of the key that a file name stands for. -/
def decodeChars? : List Char → Option (List Char)
  | '.' :: _ => none
  | s => unescape? s

/-- The file name of a key. -/
def encode (key : String) : String := String.ofList (encodeChars key.toList)

/-- The key that a file name stands for. -/
def decode? (name : String) : Option String := (decodeChars? name.toList).map String.ofList

end DavGateway.FileName
