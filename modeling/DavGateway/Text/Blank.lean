/-!
# Blank characters

Which characters count as blank, and how blanks are trimmed off a text. The class is the
White_Space property, of which `Char.isWhitespace` knows a few characters only.
-/

namespace DavGateway.Text

/-- The characters with the White_Space property. -/
def isBlank (c : Char) : Bool :=
  let n := c.toNat
  (9 ≤ n && n ≤ 13) || n == 0x20 || n == 0x85 || n == 0xA0 || n == 0x1680
    || (0x2000 ≤ n && n ≤ 0x200A) || n == 0x2028 || n == 0x2029 || n == 0x202F
    || n == 0x205F || n == 0x3000

/-- The text without the blanks in front. -/
def trimStart (s : List Char) : List Char := s.dropWhile isBlank

/-- The text without the blanks at its end. -/
def trimEnd (s : List Char) : List Char := (s.reverse.dropWhile isBlank).reverse

/-- The text without the blanks around it. -/
def trim (s : List Char) : List Char := trimEnd (trimStart s)

/-- The text without the blanks around it. -/
def trimmed (s : String) : String := String.ofList (trim s.toList)

end DavGateway.Text
