import DavGateway.Bytes
import DavGateway.Text.Blank
import DavGateway.Text.Number
import DavGateway.Text.Split

/-!
# Requests

A request has a method, the path of its target, header fields and a body that arrives in chunks.
The names of header fields are in lower case.
-/

namespace DavGateway.Http

/-- A request. A chunk of the body can be a failure to read it. -/
structure Request where
  method : String
  path : String
  headers : List (String × Bytes) := []
  body : List (Except String Bytes) := []
deriving Repr

namespace Request

/-- The value of the first header field of a name. -/
def header? (r : Request) (name : String) : Option Bytes := r.headers.lookup name

/-- Does a byte of a header field show, or is it a tab? -/
def isVisible (b : UInt8) : Bool := b == 9 || (0x20 ≤ b && b < 0x7F)

/-- A header value as text, if all its bytes are visible ones. -/
def visible? (value : Bytes) : Option (List Char) :=
  if value.all isVisible then some (value.map fun b => Char.ofNat b.toNat) else none

/-- Can the byte stand in a header value? -/
def isFieldByte (b : UInt8) : Bool := b == 9 || (0x20 ≤ b && b != 0x7F)

/-- Can the character stand in a method or in the name of a header field? -/
def isTokenChar (c : Char) : Bool := c.isAlphanum || "!#$%&'*+-.^_\x60|~".toList.contains c

/-! ## Targets -/

/-- Can the character stand in a path? Everything beyond ASCII can. -/
def isPathChar (c : Char) : Bool := '!' ≤ c && c != '<' && c != '>' && c != '\x60'

/-- Can the character stand in a query? Everything beyond ASCII can. -/
def isQueryChar (c : Char) : Bool := '!' ≤ c && c != '<' && c != '>' && c != '"'

/-- The path of a path with a query and a fragment behind it. What a fragment holds does not
matter. -/
def plainPath? (s : List Char) : Option (List Char) :=
  let s := s.takeWhile (· != '#')
  let path := s.takeWhile (· != '?')
  if path.all isPathChar && (s.drop path.length).all isQueryChar then some path else none

/-- Can the character stand in the name of a scheme? -/
def isSchemeChar (c : Char) : Bool := c.isAlphanum || "+-.~".toList.contains c

/-- What follows the scheme, if the target has one. -/
def afterScheme? (s : List Char) : Option (List Char) :=
  match s.dropWhile isSchemeChar with
  | ':' :: '/' :: '/' :: rest => some rest
  | _ => none

/-- What has been seen of the name of a host: the colons that may set a number off, brackets around an
address, a percent sign, and whether the last character closes the name of a user. -/
structure HostName where
  colons : Nat := 0
  opened : Bool := false
  closed : Bool := false
  percent : Bool := false
  endsUser : Bool := false
deriving DecidableEq, Repr

namespace HostName

/-- Can the character stand in a name as it is? -/
def isPlain (c : Char) : Bool := c.isAlphanum || "-._~!$&'()*+,;=".toList.contains c

/-- Takes the next character. Behind a bracket or the name of a user, colons are counted anew. -/
def next? (h : HostName) (c : Char) : Option HostName :=
  if c = ':' then
    if 8 ≤ h.colons then none else some { h with colons := h.colons + 1, endsUser := false }
  else if c = '[' then
    if h.percent || h.opened then none else some { h with opened := true, endsUser := false }
  else if c = ']' then
    if !h.opened || h.closed then none
    else some { h with closed := true, colons := 0, percent := false, endsUser := false }
  else if c = '@' then some { h with colons := 0, percent := false, endsUser := true }
  else if c = '%' then some { h with percent := true, endsUser := false }
  else if isPlain c then some { h with endsUser := false }
  else none

/-- Is the name complete? There is a host, with at most one number behind it. -/
def isComplete (h : HostName) : Bool :=
  h.opened == h.closed && h.colons ≤ 1 && !h.endsUser && !h.percent

end HostName

/-- Is it the name of a host? -/
def isHost (s : List Char) : Bool :=
  !s.isEmpty && (s.foldlM HostName.next? {}).any HostName.isComplete

/-- The path of a request target: a path, an asterisk, an absolute reference, or the name of a host
alone, which has no path at all. -/
def pathOf? (target : String) : Option String :=
  let s := target.toList
  if s.head? = some '/' then (plainPath? s).map String.ofList
  else if target = "*" then some "*"
  else match afterScheme? s with
    | some rest =>
      let host := rest.takeWhile fun c => c != '/' && c != '?' && c != '#'
      if isHost host then
        (plainPath? (rest.drop host.length)).map fun path =>
          if path.isEmpty then "/" else String.ofList path
      else none
    | none => if isHost s then some "" else none

/-- A request from its parts, if they can be sent. -/
def ofParts? (method target : String) (headers : List (String × Bytes))
    (body : List (Except String Bytes)) : Option Request := do
  let path ← pathOf? target
  if method ≠ "" && method.toList.all isTokenChar
      && headers.all fun (name, value) =>
        name ≠ "" && name.toList.all isTokenChar && value.all isFieldByte then
    some ⟨method, path,
      headers.map fun (name, value) => (String.ofList (Text.lowered name.toList), value), body⟩
  else none

end Request

end DavGateway.Http
