import DavGateway.Session

/-!
# Uploads

An upload writes a body, which arrives in frames of any size, in chunks of one size. The chunks do
not depend on the frames: whatever has arrived is cut into whole chunks (`cut`), and what is left
waits for more. An object that is to be replaced is removed first.
-/

namespace DavGateway

/-- What an upload came to. -/
structure UploadReceipt where
  size : Nat
  chunks : Nat
  replaced : Bool
deriving DecidableEq, Repr

/-- What is uploaded. A frame can be a failure of the body. -/
structure UploadRequest where
  key : String
  frames : List (Except Failure Bytes)
  declared : Option Nat := none
  replaces : Bool := false
deriving Repr

namespace Upload

/-- The usual size of a chunk. -/
def usualChunk : Nat := 32 * 1024

/-- The first `count` chunks of size `c`, and what follows them. -/
def cutOff (c : Nat) : Nat → Bytes → List Bytes × Bytes
  | 0, bytes => ([], bytes)
  | count + 1, bytes =>
    let (chunks, rest) := cutOff c count (bytes.drop c)
    (bytes.take c :: chunks, rest)

/-- All whole chunks of size `c`, and what follows them. -/
def cut (c : Nat) (bytes : Bytes) : List Bytes × Bytes := cutOff c (bytes.length / c) bytes

/-- How far an upload has come: the bytes that arrived, those that were written and in how many
chunks, and the bytes that wait. -/
structure Progress where
  received : Nat := 0
  written : Nat := 0
  chunks : Nat := 0
  waiting : Bytes := []
deriving DecidableEq, Repr

/-- Writes chunks one behind the other. -/
def writeChunks (key : String) : List Bytes → Nat → SessionM Empty Nat
  | [], offset => return offset
  | chunk :: rest, offset => do
    Session.write key chunk offset
    writeChunks key rest (offset + chunk.length)

/-- Takes the frames in. More bytes than were declared are refused as soon as they arrive. -/
def receive (key : String) (c : Nat) (declared : Option Nat) :
    List (Except Failure Bytes) → Progress → SessionM Empty Progress
  | [], p => return p
  | .error failure :: _, _ => throw failure
  | .ok data :: rest, p => do
    let received := p.received + data.length
    match declared.filter (· < received) with
    | some limit => throw (.body ("body exceeds declared length " ++ toString limit))
    | none =>
      let (chunks, waiting) := cut c (p.waiting ++ data)
      let written ← writeChunks key chunks p.written
      receive key c declared rest ⟨received, written, p.chunks + chunks.length, waiting⟩

/-- Writes what waits. An object is made even if nothing arrived. -/
def finish (key : String) (declared : Option Nat) (p : Progress) : SessionM Empty Progress := do
  match declared.filter (p.received < ·) with
  | some limit =>
    throw (.body ("body ended after " ++ toString p.received ++ " of " ++ toString limit
      ++ " bytes"))
  | none =>
    if p.waiting ≠ [] ∨ p.chunks = 0 then
      Session.write key p.waiting p.written
      return { p with
        written := p.written + p.waiting.length, chunks := p.chunks + 1, waiting := [] }
    else return p

/-- Removes an object, which may be missing. -/
def clear (key : String) : SessionM Empty Unit := do
  match ← Session.attempt (Session.remove key) with
  | .ok () => return
  | .error failure => if failure.isNotFound then return else throw failure

/-- Uploads a body in chunks of `chunkSize` bytes, and at least one. -/
def run (chunkSize : Nat) (request : UploadRequest) : SessionM Empty UploadReceipt := do
  if request.replaces then clear request.key
  let p ← receive request.key (max chunkSize 1) request.declared request.frames {}
  let p ← finish request.key request.declared p
  return ⟨p.received, p.chunks, request.replaces⟩

end Upload

end DavGateway
