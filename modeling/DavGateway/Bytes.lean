/-!
# Bytes

Object contents, request bodies and wire text are lists of bytes. Text enters and leaves through
UTF-8 only: `Bytes.ofText` never fails, `Bytes.toText?` accepts exactly the well-formed lists.
-/

namespace DavGateway

/-- A string of bytes. -/
abbrev Bytes := List UInt8

namespace Bytes

/-- The UTF-8 form of a text. -/
def ofText (s : String) : Bytes := s.toUTF8.data.toList

/-- The text a list of bytes spells in UTF-8, if it is well formed. -/
def toText? (bytes : Bytes) : Option String := String.fromUTF8? ⟨bytes.toArray⟩

/-- The bytes of `bytes` from `start` on, at most `count` of them. -/
def slice (bytes : Bytes) (start count : Nat) : Bytes := (bytes.drop start).take count

/-- `bytes` with `data` laid over it from `start` on; a gap before `start` is filled with zeros. -/
def overlay (bytes : Bytes) (start : Nat) (data : Bytes) : Bytes :=
  bytes.take start ++ List.replicate (start - bytes.length) 0 ++ data
    ++ bytes.drop (start + data.length)

theorem length_overlay (bytes : Bytes) (start : Nat) (data : Bytes) :
    (bytes.overlay start data).length = max bytes.length (start + data.length) := by
  simp only [overlay, List.length_append, List.length_take, List.length_replicate,
    List.length_drop]
  omega

end Bytes

end DavGateway
