/-!
# Markup

Text inside an XML document: the five characters that have a meaning there are written as entities.
-/

namespace DavGateway.Markup

/-- One character of element content or of an attribute value. -/
def escapeChar (c : Char) : List Char :=
  match c with
  | '&' => "&amp;".toList
  | '<' => "&lt;".toList
  | '>' => "&gt;".toList
  | '"' => "&quot;".toList
  | '\'' => "&apos;".toList
  | _ => [c]

/-- A text as element content. -/
def escape (s : String) : String := String.ofList (s.toList.flatMap escapeChar)

/-- An element with text in it. -/
def element (name text : String) : String :=
  "<" ++ name ++ ">" ++ escape text ++ "</" ++ name ++ ">"

end DavGateway.Markup
