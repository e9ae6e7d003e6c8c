import DavGateway.Store.Disk
import DavGateway.Store.FileName
import DavGateway.Store.Names
import DavGateway.Store.Operation
import DavGateway.Text.Blank

/-!
# Pools in a directory

A directory cluster is a folder; each pool is a folder in it, and each object is one file in the
folder of its pool, under the name that `FileName.encode` gives. The identity of the cluster is
kept in a file beside the pools.
-/

namespace DavGateway

/-- A cluster of pools in the folder `root`. -/
structure DirectoryCluster where
  root : DiskPath
  identity : String
deriving DecidableEq, Repr

namespace DirectoryCluster

/-- The name of the file that holds the identity of a cluster. -/
def identityFile : String := ".cluster-id"

/-- The result of a step on a disk, which stays as it is if the step fails. -/
def onDisk (d : Disk) (result : Except SystemError Disk) : Except SystemError Unit × Disk :=
  match result with
  | .ok d => (.ok (), d)
  | .error e => (.error e, d)

/-- Writes a new identity. -/
def stampIdentity (d : Disk) (root : DiskPath) (now : Int) (fresh : String) :
    Except Failure DirectoryCluster × Disk :=
  match d.changeFile (root ++ [identityFile]) now fun _ => Bytes.ofText fresh with
  | .ok d => (.ok ⟨root, fresh⟩, d)
  | .error e => (.error (.ofSystem e), d)

/-- Opens the cluster in a folder, which is made if it is missing. The identity is what the file
for it holds, less the blanks around; if that is nothing, the identity becomes `fresh`. -/
def connect (d : Disk) (root : DiskPath) (now : Int) (fresh : String) :
    Except Failure DirectoryCluster × Disk :=
  match d.makeFolders root with
  | (.error e, d) => (.error (.ofSystem e), d)
  | (.ok (), d) =>
    match d.readFile (root ++ [identityFile]) with
    | .ok bytes =>
      match Bytes.toText? bytes with
      | none => (.error (.ofSystem .notUtf8), d)
      | some text =>
        if Text.trimmed text = "" then stampIdentity d root now fresh
        else (.ok ⟨root, Text.trimmed text⟩, d)
    | .error .notFound => stampIdentity d root now fresh
    | .error e => (.error (.ofSystem e), d)

/-- Makes a pool. -/
def createPool (c : DirectoryCluster) (d : Disk) (name : String) : Except Failure Unit × Disk :=
  match Names.checkPool name with
  | .error failure => (.error failure, d)
  | .ok () =>
    match d.makeFolder (c.root ++ [name]) with
    | .ok d => (.ok (), d)
    | .error .alreadyExists => (.error (.poolExists name), d)
    | .error e => (.error (.ofSystem e), d)

/-- Looks a pool up. -/
def openPool (c : DirectoryCluster) (d : Disk) (name : String) : Except Failure Unit := do
  Names.checkPool name
  if d.isFolder (c.root ++ [name]) then .ok () else .error (.poolNotFound name)

end DirectoryCluster

/-- A pool in a folder. -/
structure DirectoryPool where
  folder : DiskPath
deriving DecidableEq, Repr

namespace DirectoryPool

/-- The path of the file that holds an object. -/
def filePath (p : DirectoryPool) (key : String) : Except Failure DiskPath := do
  Names.checkKey key
  .ok (p.folder ++ [FileName.encode key])

/-- What a system error says about an object. -/
def failureAt (key : String) : SystemError → Failure
  | .notFound => .objectNotFound key
  | e => .ofSystem e

/-- Size and time of an object. A folder is no object. -/
def stat (p : DirectoryPool) (d : Disk) (key : String) : Except Failure ObjectStat := do
  match d.find (← p.filePath key) with
  | .ok (.file data mtime) => .ok ⟨data.length, mtime⟩
  | .ok .folder => .error (.objectNotFound key)
  | .error e => .error (failureAt key e)

/-- The bytes of an object from `offset` on, at most `length` of them. The file is opened first,
then the place to read from is looked for, then memory for `length` bytes is taken. -/
def read (p : DirectoryPool) (d : Disk) (key : String) (length offset : Nat) : Ending Bytes :=
  match p.filePath key with
  | .error failure => .returned (.error failure)
  | .ok path =>
    match d.find path with
    | .error e => .returned (.error (failureAt key e))
    | .ok entry =>
      if Text.signedLimit ≤ offset then .returned (.error (.ofSystem .invalidArgument))
      else if Text.signedLimit ≤ length then .broken .capacityOverflow
      else match entry with
        | .file data _ => .returned (.ok (data.slice offset length))
        | .folder =>
          .returned (if length = 0 then .ok [] else .error (.ofSystem .isDirectory))

/-- Is there no room in a file for `length` bytes from `offset` on? -/
def isOutOfRoom (length offset : Nat) : Bool :=
  Text.signedLimit ≤ offset || (length != 0 && Text.signedLimit ≤ offset + length)

/-- Lays `data` over an object from `offset` on. The file is opened first, and made if it is
missing; writing nothing then changes nothing. -/
def write (p : DirectoryPool) (d : Disk) (now : Int) (key : String) (data : Bytes) (offset : Nat) :
    Except Failure Unit × Disk :=
  match p.filePath key with
  | .error failure => (.error failure, d)
  | .ok path =>
    let refused := isOutOfRoom data.length offset
    match d.changeFile path now fun old =>
      if refused || data.isEmpty then old else old.overlay offset data with
    | .error e => (.error (.ofSystem e), d)
    | .ok d => (if refused then .error (.ofSystem .invalidArgument) else .ok (), d)

/-- Takes an object away. -/
def remove (p : DirectoryPool) (d : Disk) (key : String) : Except Failure Unit × Disk :=
  match p.filePath key with
  | .error failure => (.error failure, d)
  | .ok path =>
    match d.removeFile path with
    | .ok d => (.ok (), d)
    | .error e => (.error (failureAt key e), d)

/-- The keys that the names in the folder stand for. A system reads a folder while a listing goes
on, and in an order that it does not tell. Here the names are those at the beginning of the listing,
and the order is that of the keys: which keys are listed does not depend on the order. -/
def keys (p : DirectoryPool) (d : Disk) : Except Failure (List String) :=
  match d.names p.folder with
  | .ok names => .ok ((names.filterMap FileName.decode?).mergeSort fun a b => decide (a ≤ b))
  | .error e => .error (.ofSystem e)

/-- Performs one operation at the time `now`. -/
def perform (p : DirectoryPool) (d : Disk) (now : Int) : Operation → Ending Reply × Disk
  | .stat key => (.returned ((p.stat d key).map .stat), d)
  | .read key length offset => ((p.read d key length offset).map .data, d)
  | .write key data offset =>
    let (result, d) := p.write d now key data offset
    (.returned (result.map fun _ => .done), d)
  | .remove key =>
    let (result, d) := p.remove d key
    (.returned (result.map fun _ => .done), d)

end DirectoryPool

end DavGateway
