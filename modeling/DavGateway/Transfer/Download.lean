import DavGateway.Session

/-!
# Downloads

A download hands out the bytes of an object in chunks, one read after the other. It knows the size
from before: a read that brings nothing before all bytes have arrived is a failure.
-/

namespace DavGateway.Download

/-- The usual size of a chunk. -/
def usualChunk : Nat := 8 * 1024

/-- Hands out the bytes of an object of the given size from `offset` on, in reads of at most `c`
bytes. -/
def chunksFrom (c : Nat) (key : String) (size offset : Nat) : SessionM Bytes Unit :=
  if offset < size then do
    let data ← Session.read key (min (size - offset) c) offset
    if data.length = 0 then throw (.shortRead key (size - offset))
    else
      Session.emit data
      chunksFrom c key size (offset + data.length)
  else return
termination_by size - offset

/-- Hands out an object of the given size in chunks of `chunkSize` bytes, and at least one. -/
def run (chunkSize : Nat) (key : String) (size : Nat) : SessionM Bytes Unit :=
  chunksFrom (max chunkSize 1) key size 0

end DavGateway.Download
