import DavGateway.Bytes
import DavGateway.Text.Number
import DavGateway.Text.Printable

/-!
# Quoted text

How names, keys and data are shown inside an error text: between double quotes, with everything
that would not show as itself written as an escape.
-/

namespace DavGateway.Text

/-- One character of a quoted text: short escapes first, then what prints, then its number. -/
def quotedChar (c : Char) : String :=
  match c with
  | '\x00' => "\\0"
  | '\t' => "\\t"
  | '\r' => "\\r"
  | '\n' => "\\n"
  | '"' => "\\\""
  | '\\' => "\\\\"
  | _ =>
    if isExtending c || !isPrintable c then "\\u\x7b" ++ hex c.toNat ++ "\x7d"
    else String.singleton c

/-- A text between double quotes. -/
def quoted (s : String) : String :=
  "\"" ++ String.join (s.toList.map quotedChar) ++ "\""

/-- One byte of quoted data: printable ASCII shows as itself. -/
def quotedByte (b : UInt8) : String :=
  let n := b.toNat
  if n = 0x0A then "\\n"
  else if n = 0x0D then "\\r"
  else if n = 0x09 then "\\t"
  else if n = 0x5C then "\\\\"
  else if n = 0x22 then "\\\""
  else if n = 0 then "\\0"
  else if 0x20 ≤ n ∧ n < 0x7F then String.singleton (Char.ofNat n)
  else "\\x" ++ (if n < 16 then "0" else "") ++ hex n

/-- Data between double quotes, marked as bytes. -/
def quotedBytes (bytes : Bytes) : String :=
  "b\"" ++ String.join (bytes.map quotedByte) ++ "\""

end DavGateway.Text
