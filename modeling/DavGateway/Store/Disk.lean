import DavGateway.Bytes
import DavGateway.Failure

/-!
# A disk

Folders and files under paths, with the operations of a file system that a store needs. A path is
the list of its components from the root; a component `..` leads back up. Every operation walks
along its path first, and a walk goes only through folders that exist.
-/

namespace DavGateway

/-- The components of a path from the root. -/
abbrev DiskPath := List String

/-- What is found at a path: a file with its bytes and the time of its last change, or a folder. -/
inductive DiskEntry where
  | file (data : Bytes) (mtime : Int)
  | folder
deriving DecidableEq, Repr

/-- The entries of a disk, each under the full path to it. The root is always there. -/
structure Disk where
  entries : List (DiskPath × DiskEntry) := []
deriving DecidableEq, Repr, Inhabited

namespace DiskPath

/-- The components of a path in text, seen from the folder `here`. Empty components and single dots
say nothing. -/
def ofText (here : DiskPath) (text : String) : DiskPath :=
  let parts := (text.splitOn "/").filter fun part => part != "" && part != "."
  if text.toList.head? = some '/' then parts else here ++ parts

/-- The path in text. -/
def text (path : DiskPath) : String := "/" ++ String.intercalate "/" path

/-- The paths on the way from `here` along components, the last one first. -/
def wayFrom (here : DiskPath) : List String → List DiskPath
  | [] => []
  | part :: rest =>
    let next := if part = ".." then here.dropLast else here ++ [part]
    wayFrom next rest ++ [next]

/-- The paths on the way to a path, from the root on and less the root. -/
def way (path : DiskPath) : List DiskPath := ((wayFrom [] path).filter (· ≠ [])).reverse

end DiskPath

namespace Disk

/-- The longest component that a disk takes, in bytes. -/
def longestName : Nat := 255

/-- What is found at a path without `..` in it. -/
def entry? (d : Disk) (path : DiskPath) : Option DiskEntry :=
  if path = [] then some .folder else d.entries.lookup path

/-- Puts an entry at a path. -/
def put (d : Disk) (path : DiskPath) (entry : DiskEntry) : Disk :=
  { entries := (d.entries.filter fun e => e.1 != path) ++ [(path, entry)] }

/-- Takes the entry at a path away. -/
def drop (d : Disk) (path : DiskPath) : Disk :=
  { entries := d.entries.filter fun e => e.1 != path }

/-- Walks along `parts` from `here` on. The last component need not exist. -/
def walkFrom (d : Disk) (here : DiskPath) : List String → Except SystemError DiskPath
  | [] => .ok here
  | part :: rest =>
    match d.entry? here with
    | none => .error .notFound
    | some (.file _ _) => .error .notDirectory
    | some .folder =>
      if part = ".." then d.walkFrom here.dropLast rest
      else if longestName < part.utf8ByteSize then .error .nameTooLong
      else d.walkFrom (here ++ [part]) rest

/-- Walks along a path. The answer has no `..` in it. -/
def walk (d : Disk) (path : DiskPath) : Except SystemError DiskPath :=
  if path.any fun part => part.toList.contains '\x00' then .error .nulInPath
  else d.walkFrom [] path

/-- What is found at the end of a path. -/
def find (d : Disk) (path : DiskPath) : Except SystemError DiskEntry := do
  match d.entry? (← d.walk path) with
  | some entry => .ok entry
  | none => .error .notFound

/-- Is there a folder at the end of the path? -/
def isFolder (d : Disk) (path : DiskPath) : Bool :=
  match d.find path with
  | .ok .folder => true
  | _ => false

/-! ## Folders -/

/-- Makes a folder. -/
def makeFolder (d : Disk) (path : DiskPath) : Except SystemError Disk := do
  let place ← d.walk path
  match d.entry? place with
  | some _ => .error .alreadyExists
  | none => .ok (d.put place .folder)

/-- Makes a folder unless there is one. -/
def ensureFolder (d : Disk) (path : DiskPath) : Except SystemError Disk :=
  match d.makeFolder path with
  | .ok d => .ok d
  | .error e => if d.isFolder path then .ok d else .error e

/-- Makes the folder whose components, last one first, are `parts`; first those above it if they
are missing. -/
def ensureFolders (d : Disk) : List String → Except SystemError Unit × Disk
  | [] => (.ok (), d)
  | part :: above =>
    let path := (part :: above).reverse
    match d.ensureFolder path with
    | .ok d => (.ok (), d)
    | .error .notFound =>
      match d.ensureFolders above with
      | (.error e, d) => (.error e, d)
      | (.ok (), d) =>
        match d.ensureFolder path with
        | .ok d => (.ok (), d)
        | .error e => (.error e, d)
    | .error e => (.error e, d)

/-- Makes a folder and all the folders above it that are missing. -/
def makeFolders (d : Disk) (path : DiskPath) : Except SystemError Unit × Disk :=
  d.ensureFolders path.reverse

/-- The names in a folder. -/
def names (d : Disk) (path : DiskPath) : Except SystemError (List String) := do
  let place ← d.walk path
  match d.entry? place with
  | none => .error .notFound
  | some (.file _ _) => .error .notDirectory
  | some .folder =>
    .ok (d.entries.filterMap fun e => if e.1.dropLast = place then e.1.getLast? else none)

/-! ## Files -/

/-- The bytes of a file. -/
def readFile (d : Disk) (path : DiskPath) : Except SystemError Bytes := do
  match ← d.find path with
  | .file data _ => .ok data
  | .folder => .error .isDirectory

/-- Changes the bytes of a file, which is made first if it is missing. -/
def changeFile (d : Disk) (path : DiskPath) (now : Int) (f : Bytes → Bytes) :
    Except SystemError Disk := do
  let place ← d.walk path
  match d.entry? place with
  | some .folder => .error .isDirectory
  | some (.file data _) => .ok (d.put place (.file (f data) now))
  | none => .ok (d.put place (.file (f []) now))

/-- Takes a file away. -/
def removeFile (d : Disk) (path : DiskPath) : Except SystemError Disk := do
  let place ← d.walk path
  match d.entry? place with
  | none => .error .notFound
  | some .folder => .error .isDirectory
  | some (.file _ _) => .ok (d.drop place)

end Disk

end DavGateway
