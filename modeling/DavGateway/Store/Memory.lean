import DavGateway.Store.Names
import DavGateway.Store.Operation
import DavGateway.Store.Shelf

/-!
# Pools in memory

A memory pool is a shelf of byte strings with the times of their last change. Lengths and offsets
are 64-bit numbers: a write whose end is not one breaks off, after the object has been made.
-/

namespace DavGateway

/-- An object kept in memory. -/
structure MemoryObject where
  data : Bytes := []
  mtime : Int := 0
deriving DecidableEq, Repr, Inhabited

/-- A pool kept in memory. -/
structure MemoryPool where
  objects : Shelf MemoryObject := {}
deriving DecidableEq, Inhabited

namespace MemoryPool

/-- The bytes of an object. -/
def content? (p : MemoryPool) (key : String) : Option Bytes := (p.objects.get? key).map (·.data)

/-- Size and time of an object. -/
def stat (p : MemoryPool) (key : String) : Except Failure ObjectStat :=
  match p.objects.get? key with
  | some object => .ok ⟨object.data.length, object.mtime⟩
  | none => .error (.objectNotFound key)

/-- The bytes of an object from `offset` on, at most `length` of them. -/
def read (p : MemoryPool) (key : String) (length offset : Nat) : Except Failure Bytes :=
  match p.objects.get? key with
  | some object => .ok (object.data.slice offset length)
  | none => .error (.objectNotFound key)

/-- Lays `data` over an object from `offset` on, at the time `now`. An object that does not exist
is made first; then the end of the data is computed, and memory for it is taken. The end is computed
with a check for overflow. Without one an end of 2^64 or more wraps around to a small number, up to
which the object may still be made longer before the write breaks off. -/
def write (p : MemoryPool) (now : Int) (key : String) (data : Bytes) (offset : Nat) :
    Ending Unit × MemoryPool :=
  match Names.checkKey key with
  | .error failure => (.returned (.error failure), p)
  | .ok () =>
    let object := (p.objects.get? key).getD {}
    if Text.wordLimit ≤ offset + data.length then
      (.broken .lengthOverflow, { objects := p.objects.set key object })
    else if Text.signedLimit ≤ offset + data.length then
      (.broken .capacityOverflow, { objects := p.objects.set key object })
    else
      (.returned (.ok ()),
        { objects := p.objects.set key ⟨object.data.overlay offset data, now⟩ })

/-- Takes an object away. -/
def remove (p : MemoryPool) (key : String) : Except Failure Unit × MemoryPool :=
  if p.objects.contains key then (.ok (), { objects := p.objects.erase key })
  else (.error (.objectNotFound key), p)

/-- The keys of the pool, in ascending order. -/
def keys (p : MemoryPool) : List String := p.objects.keys

/-- Performs one operation at the time `now`. -/
def perform (p : MemoryPool) (now : Int) : Operation → Ending Reply × MemoryPool
  | .stat key => (.returned ((p.stat key).map .stat), p)
  | .read key length offset => (.returned ((p.read key length offset).map .data), p)
  | .write key data offset =>
    let (ending, p) := p.write now key data offset
    (ending.map fun _ => .done, p)
  | .remove key =>
    let (result, p) := p.remove key
    (.returned (result.map fun _ => .done), p)

end MemoryPool

/-- A cluster of pools kept in memory. -/
structure MemoryCluster where
  pools : Shelf MemoryPool := {}
deriving DecidableEq, Inhabited

namespace MemoryCluster

/-- A cluster without pools. -/
def empty : MemoryCluster := {}

/-- Makes a pool. -/
def createPool (c : MemoryCluster) (name : String) : Except Failure Unit × MemoryCluster :=
  match Names.checkPool name with
  | .error failure => (.error failure, c)
  | .ok () =>
    if c.pools.contains name then (.error (.poolExists name), c)
    else (.ok (), { pools := c.pools.set name {} })

/-- Looks a pool up. -/
def openPool (c : MemoryCluster) (name : String) : Except Failure Unit :=
  if c.pools.contains name then .ok () else .error (.poolNotFound name)

/-- Performs an operation on a pool; a pool that does not exist is empty. -/
def perform (c : MemoryCluster) (now : Int) (pool : String) (operation : Operation) :
    Ending Reply × MemoryCluster :=
  let (ending, p) := ((c.pools.get? pool).getD {}).perform now operation
  (ending, { pools := c.pools.update pool fun _ => p })

/-- The keys of a pool, in ascending order. -/
def keys (c : MemoryCluster) (pool : String) : List String :=
  ((c.pools.get? pool).getD {}).keys

end MemoryCluster

end DavGateway
