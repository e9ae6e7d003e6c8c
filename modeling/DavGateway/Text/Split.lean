/-!
# Splitting text

A text is split at every place of one character (`fields`), at the first one (`cutAt?`), or behind
what it has to begin with (`behind?`).
-/

namespace DavGateway.Text

/-- The parts of a text between the places of `separator`: one more than there are places. -/
def fields (separator : Char) : List Char → List (List Char)
  | [] => [[]]
  | c :: rest =>
    if c = separator then [] :: fields separator rest
    else match fields separator rest with
      | [] => [[c]]
      | first :: others => (c :: first) :: others

/-- What stands in front of the first `separator`, and what stands behind it. -/
def cutAt? (separator : Char) : List Char → Option (List Char × List Char)
  | [] => none
  | c :: rest =>
    if c = separator then some ([], rest)
    else (cutAt? separator rest).map fun (front, back) => (c :: front, back)

/-- What follows `front` in a text that begins with it. -/
def behind? : List Char → List Char → Option (List Char)
  | [], s => some s
  | c :: front, d :: s => if c = d then behind? front s else none
  | _ :: _, [] => none

/-- The text without the slashes at its end. -/
def withoutEndSlashes (s : String) : String :=
  String.ofList (s.toList.reverse.dropWhile (· == '/')).reverse

/-- The text with its ASCII capitals in lower case. -/
def lowered (s : List Char) : List Char := s.map Char.toLower

end DavGateway.Text
