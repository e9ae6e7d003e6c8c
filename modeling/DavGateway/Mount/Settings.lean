import DavGateway.Failure
import DavGateway.Mount.Permissions
import DavGateway.Text.Blank
import DavGateway.Text.Split

/-!
# Settings of a mount

A mount shows one pool below a mountpoint. Its settings can be written on one line, as items
`key=value` with commas between them: `mountpoint=/photos,pool=p1,timeout=30,allow_put=yes`. Blank
items are skipped, and of two items with one key the last one counts.
-/

namespace DavGateway

/-- The settings of a mount. `connection` names the store connection, and `timeout` is in
seconds. -/
structure MountSettings where
  mountpoint : String
  pool : String
  connection : Option String := none
  timeout : Option Nat := none
  permissions : Permissions := {}
deriving DecidableEq, Repr

/-- One item of a line. -/
inductive MountItem where
  | mountpoint (value : String)
  | pool (value : String)
  | connection (value : String)
  | timeout (seconds : Nat)
  | allow (verb : GuardedVerb) (allowed : Bool)
deriving DecidableEq, Repr

namespace MountSettings

/-- A mountpoint without the slashes at its end. -/
def normalize (mountpoint : String) : String := Text.withoutEndSlashes mountpoint

/-- How long operations of the mount may take. -/
def limit (s : MountSettings) (usual : Nat) : Span := Span.ofSeconds (s.timeout.getD usual)

/-! ## Reading a line -/

/-- The keys that allow verbs. -/
def verbKeys : List (String × GuardedVerb) :=
  [("allow_put", .put), ("allow_delete", .delete), ("allow_mkcol", .mkcol),
    ("allow_propfind", .propfind)]

/-- The truth value that a word stands for, in any case. -/
def flag? (value : List Char) : Option Bool :=
  let word := String.ofList (Text.lowered value)
  if ["1", "true", "yes", "on"].contains word then some true
  else if ["0", "false", "no", "off"].contains word then some false
  else none

/-- Reads one item, which has no blanks around it. -/
def readItem (item : List Char) : Except Failure MountItem :=
  match Text.cutAt? '=' item with
  | none =>
    .error (.configuration
      ("invalid mount option '" ++ String.ofList item ++ "': expected key=value"))
  | some (front, back) =>
    let key := String.ofList (Text.trim front)
    let value := Text.trim back
    let word := String.ofList value
    if key = "mountpoint" then .ok (.mountpoint word)
    else if key = "pool" then .ok (.pool word)
    else if key = "config" then .ok (.connection word)
    else if key = "timeout" then
      match Text.readWord? value with
      | some seconds => .ok (.timeout seconds)
      | none => .error (.configuration ("mount timeout must be an integer: " ++ word))
    else match verbKeys.lookup key with
      | some verb =>
        match flag? value with
        | some allowed => .ok (.allow verb allowed)
        | none =>
          .error (.configuration
            (String.ofList front ++ " must be a boolean, got '" ++ word ++ "'"))
      | none => .error (.configuration ("unknown mount option '" ++ key ++ "'"))

/-- The items of a line, without blanks around them; blank ones are left out. -/
def itemsOf (line : String) : List (List Char) :=
  ((Text.fields ',' line.toList).map Text.trim).filter fun item => !item.isEmpty

/-- The settings with one item put in. -/
def put (s : MountSettings) : MountItem → MountSettings
  | .mountpoint value => { s with mountpoint := value }
  | .pool value => { s with pool := value }
  | .connection value => { s with connection := some value }
  | .timeout seconds => { s with timeout := some seconds }
  | .allow verb allowed => { s with permissions := s.permissions.set verb allowed }

/-- Reads a line. Mountpoint and pool must be there and not be empty. -/
def read (line : String) : Except Failure MountSettings := do
  let items ← (itemsOf line).mapM readItem
  let settings := items.foldl put { mountpoint := "", pool := "" }
  if settings.mountpoint = "" ∨ settings.pool = "" then
    .error (.configuration "mount requires a mountpoint and a pool name")
  else .ok settings

end MountSettings

end DavGateway
