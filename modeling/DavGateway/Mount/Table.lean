import DavGateway.Mount.Settings
import DavGateway.Store.Client

/-!
# Mounts and their table

The table finds the mount for a path: the one with the longest base that covers the path, where a
base covers itself and everything that follows it after a slash. Paths that no mount covers go to
the default mount, if there is one.
-/

namespace DavGateway

/-- An open mount. The base is the mountpoint without slashes at its end, and `handles` counts the
handles that were opened on the pool. -/
structure Mount where
  base : String
  ref : PoolRef
  handles : Nat
  permissions : Permissions
  limit : Span
deriving DecidableEq, Repr

namespace Mount

variable {σ : Type}

/-- Opens a handle on a pool. A pool that is missing is made first, if that is wanted. -/
def openHandle (client : StoreClient σ) (ref : PoolRef) (createMissing : Bool) (s : σ) :
    Except Failure Unit × σ :=
  match client.openPool ref s with
  | (.error (.poolNotFound name), s) =>
    if createMissing then
      match client.createPool ref s with
      | (.ok (), s) => client.openPool ref s
      | (.error failure, s) => (.error failure, s)
    else (.error (.poolNotFound name), s)
  | answer => answer

/-- Opens several handles on a pool, one after the other. -/
def openHandles (client : StoreClient σ) (ref : PoolRef) (createMissing : Bool) :
    Nat → σ → Except Failure Unit × σ
  | 0, s => (.ok (), s)
  | count + 1, s =>
    match openHandle client ref createMissing s with
    | (.ok (), s) => openHandles client ref createMissing count s
    | (.error failure, s) => (.error failure, s)

/-- Opens a mount on a cluster, with at least one handle on its pool. -/
def connect (client : StoreClient σ) (settings : MountSettings) (cluster handles usualTimeout : Nat)
    (createMissing : Bool) (s : σ) : Except Failure Mount × σ :=
  let ref : PoolRef := ⟨cluster, settings.pool⟩
  let handles := max handles 1
  match openHandles client ref createMissing handles s with
  | (.error failure, s) => (.error failure, s)
  | (.ok (), s) =>
    (.ok { base := MountSettings.normalize settings.mountpoint, ref := ref, handles := handles,
           permissions := settings.permissions, limit := settings.limit usualTimeout }, s)

/-- The part of a path below the mount, if the mount covers the path. -/
def rest? (m : Mount) (path : List Char) : Option (List Char) :=
  (Text.behind? m.base.toList path).filter fun rest => rest.isEmpty || rest.head? == some '/'

end Mount

/-- Where a path leads: to an object of a mount, or to the root of the mount. -/
structure Destination where
  mount : Mount
  key : Option String
deriving DecidableEq, Repr

/-- The mounts, those with longer bases first, and the default mount. -/
structure MountTable where
  mounts : List Mount
  fallback : Option Mount := none
deriving DecidableEq, Repr

namespace MountTable

/-- Is the base of `a` at least as long as that of `b`? Lengths are counted in bytes. -/
def atLeastAsLong (a b : Mount) : Bool := b.base.utf8ByteSize ≤ a.base.utf8ByteSize

/-- The first two neighbours with the same base. -/
def twin? : List Mount → Option Mount
  | a :: b :: rest => if a.base = b.base then some a else twin? (b :: rest)
  | _ => none

/-- Makes a table. Mounts of the same length stay in their order, and neighbours have to differ. -/
def ofMounts (mounts : List Mount) (fallback : Option String) : Except Failure MountTable :=
  let mounts := mounts.mergeSort atLeastAsLong
  match twin? mounts with
  | some twin => .error (.configuration ("duplicate mountpoint: " ++ twin.base ++ "/"))
  | none =>
    match fallback with
    | none => .ok ⟨mounts, none⟩
    | some mountpoint =>
      match mounts.find? fun m => m.base == MountSettings.normalize mountpoint with
      | some mount => .ok ⟨mounts, some mount⟩
      | none => .error (.configuration ("unknown default mount: " ++ mountpoint))

/-- The object that is left of a path below a mount, less one slash in front. -/
def keyOf (rest : List Char) : Option String :=
  let key := match rest with
    | '/' :: key => key
    | key => key
  if key.isEmpty then none else some (String.ofList key)

/-- Finds the mount for a path. -/
def resolve (t : MountTable) (path : String) : Option Destination :=
  let covering := t.mounts.findSome? fun m => (m.rest? path.toList).map fun rest => (m, rest)
  let found := match covering with
    | some (mount, rest) => some (mount, rest)
    | none => t.fallback.map fun mount => (mount, path.toList)
  found.map fun (mount, rest) => ⟨mount, keyOf rest⟩

end MountTable

end DavGateway
