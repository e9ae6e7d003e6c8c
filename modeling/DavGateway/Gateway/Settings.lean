import DavGateway.Engine
import DavGateway.Mount.Settings
import DavGateway.Settings.Record

/-!
# Settings of the gateway

The settings name the mounts and say how the gateway runs them. They are read from a value, whose
keys are those of a settings file, changed by what the command line says, and checked before the
gateway starts.
-/

namespace DavGateway

/-- How operations are carried out, and how many at a time. -/
structure SchedulingSettings where
  mode : SchedulingMode := .async
  concurrency : Nat := 16
deriving DecidableEq, Repr

/-- Where pools are kept. -/
inductive StoreBackend where
  | memory
  | directory
deriving DecidableEq, Repr

/-- The stores behind the mounts. `root` is the directory of mounts without a connection of their
own. -/
structure StoreSettings where
  backend : StoreBackend := .memory
  root : Option String := none
  createMissing : Bool := true
deriving DecidableEq, Repr

/-- All settings. `timeout` is in seconds, for mounts that do not set one. -/
structure GatewaySettings where
  bindAddress : String := "127.0.0.1:8080"
  timeout : Nat := 4
  scheduling : SchedulingSettings := {}
  store : StoreSettings := {}
  mounts : List MountSettings := []
  defaultMount : Option String := none
deriving DecidableEq, Repr

/-! ## Reading -/

/-- Reads how operations are scheduled. -/
def SchedulingSettings.ofValue? (v : Value) : Option SchedulingSettings := do
  let r ← Record.ofValue? v
  let modes := [("blocking", SchedulingMode.blocking), ("async", SchedulingMode.async)]
  let mode ← r.orUsual? ⟨0, "mode"⟩ (Value.choice? modes) .async
  let concurrency ← r.orUsual? ⟨1, "concurrency"⟩ Value.toWord? 16
  return { mode := mode, concurrency := concurrency }

/-- Reads where pools are kept. -/
def StoreSettings.ofValue? (v : Value) : Option StoreSettings := do
  let r ← Record.ofValue? v
  let backends := [("memory", StoreBackend.memory), ("fs", StoreBackend.directory)]
  let backend ← r.orUsual? ⟨0, "backend"⟩ (Value.choice? backends) .memory
  let root ← r.maybe? ⟨1, "root"⟩ Value.toText?
  let createMissing ← r.orUsual? ⟨2, "create_missing_pools"⟩ Value.toBool? true
  return { backend := backend, root := root, createMissing := createMissing }

/-- Reads the settings of a mount. -/
def MountSettings.ofValue? (v : Value) : Option MountSettings := do
  let r ← Record.ofValue? v
  let mountpoint ← r.required? ⟨0, "mountpoint"⟩ Value.toText?
  let pool ← r.required? ⟨1, "pool"⟩ Value.toText?
  let connection ← r.maybe? ⟨2, "config"⟩ Value.toText?
  let timeout ← r.maybe? ⟨3, "timeout_secs"⟩ Value.toWord?
  let put ← r.orUsual? ⟨4, "allow_put"⟩ Value.toBool? false
  let delete ← r.orUsual? ⟨5, "allow_delete"⟩ Value.toBool? false
  let mkcol ← r.orUsual? ⟨6, "allow_mkcol"⟩ Value.toBool? false
  let propfind ← r.orUsual? ⟨7, "allow_propfind"⟩ Value.toBool? false
  return { mountpoint := mountpoint, pool := pool, connection := connection, timeout := timeout,
           permissions := ⟨put, delete, mkcol, propfind⟩ }

namespace GatewaySettings

/-- Reads all settings. -/
def ofValue? (v : Value) : Option GatewaySettings := do
  let r ← Record.ofValue? v
  let bindAddress ← r.orUsual? ⟨0, "bind_addr"⟩ Value.toText? "127.0.0.1:8080"
  let timeout ← r.orUsual? ⟨1, "timeout_secs"⟩ Value.toWord? 4
  let scheduling ← r.orUsual? ⟨2, "scheduling"⟩ SchedulingSettings.ofValue? {}
  let store ← r.orUsual? ⟨3, "store"⟩ StoreSettings.ofValue? {}
  let mounts ← r.orUsual? ⟨4, "mounts"⟩ (Value.items? MountSettings.ofValue?) []
  let defaultMount ← r.maybe? ⟨5, "default_mount"⟩ Value.toText?
  return { bindAddress := bindAddress, timeout := timeout, scheduling := scheduling,
           store := store, mounts := mounts, defaultMount := defaultMount }

/-- How many handles a mount opens on its pool: with blocking scheduling one for each slot. -/
def handles (s : GatewaySettings) : Nat :=
  match s.scheduling.mode with
  | .blocking => s.scheduling.concurrency
  | .async => 1

end GatewaySettings

/-! ## Changes from the command line -/

/-- What the command line says about the settings. Each mount is written on one line. -/
structure SettingsChanges where
  mounts : List String := []
  timeout : Option Nat := none
  bindAddress : Option String := none
deriving DecidableEq, Repr

namespace GatewaySettings

/-- Adds mounts, up to the first line that cannot be read. -/
def addMounts : List String → GatewaySettings → Except Failure Unit × GatewaySettings
  | [], s => (.ok (), s)
  | line :: rest, s =>
    match MountSettings.read line with
    | .error failure => (.error failure, s)
    | .ok mount => addMounts rest { s with mounts := s.mounts ++ [mount] }

/-- Changes settings. A mount that cannot be read leaves the rest of the changes undone. -/
def change (s : GatewaySettings) (c : SettingsChanges) : Except Failure Unit × GatewaySettings :=
  match addMounts c.mounts s with
  | (.error failure, s) => (.error failure, s)
  | (.ok (), s) =>
    (.ok (), { s with timeout := c.timeout.getD s.timeout,
                      bindAddress := c.bindAddress.getD s.bindAddress })

/-! ## Checking -/

/-- Checks one mount, less its place among the others. -/
def checkMount (s : GatewaySettings) (m : MountSettings) : Except Failure Unit :=
  if m.mountpoint.toList.head? ≠ some '/' then
    .error (.configuration ("mountpoint must start with '/': " ++ m.mountpoint))
  else if m.timeout = some 0 then
    .error (.configuration ("mount " ++ m.mountpoint ++ " has a zero timeout"))
  else if s.store.backend = .directory ∧ m.connection = none ∧ s.store.root = none then
    .error (.configuration
      ("mount " ++ m.mountpoint ++ " needs store.root or config= with the fs backend"))
  else .ok ()

/-- Checks mounts one after the other; none may have a base in `seen` or that of an earlier one. -/
def checkMounts (s : GatewaySettings) : List String → List MountSettings → Except Failure Unit
  | _, [] => .ok ()
  | seen, m :: rest => do
    s.checkMount m
    let base := MountSettings.normalize m.mountpoint
    if base ∈ seen then .error (.configuration ("duplicate mountpoint: " ++ m.mountpoint))
    else s.checkMounts (base :: seen) rest

/-- The bases of the mounts. -/
def bases (s : GatewaySettings) : List String :=
  s.mounts.map fun m => MountSettings.normalize m.mountpoint

/-- Checks that the gateway can be started with the settings. -/
def check (s : GatewaySettings) : Except Failure Unit := do
  if s.mounts = [] then .error (.configuration "no mounts configured")
  if s.scheduling.concurrency = 0 then
    .error (.configuration "scheduling.concurrency must be at least 1")
  if s.timeout = 0 then .error (.configuration "timeout_secs must be positive")
  s.checkMounts [] s.mounts
  match s.defaultMount with
  | none => .ok ()
  | some mountpoint =>
    if MountSettings.normalize mountpoint ∈ s.bases then .ok ()
    else .error (.configuration
      ("default_mount " ++ mountpoint ++ " is not a configured mountpoint"))

end GatewaySettings

end DavGateway
