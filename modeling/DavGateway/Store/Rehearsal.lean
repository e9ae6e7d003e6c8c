import DavGateway.Store.Dispatcher
import DavGateway.Store.Memory

/-!
# Rehearsals

A memory cluster for trying the gateway out. It keeps a log of its calls, gives every object a
fixed time, and fails where it is told to: a fault waits at a point, lets the first calls that
match it pass, and then applies to the next ones, to as many as it is meant for. An operation that
is handed over is performed at once, unless a fault refuses it, parks it or makes an answer up.
-/

namespace DavGateway

/-- A point at which a fault can wait. -/
inductive FaultPoint where
  | createPool
  | openPool
  | stat
  | read
  | write
  | remove
  | list
  | next
  | alloc
  | submit
  | park
  | reply
deriving DecidableEq, Repr

/-- What a fault does: it fails the call, changes what is told about an object, cuts data off,
lets the call through to the point's own effect, or makes an outcome up. -/
inductive FaultAction where
  | fail (failure : Failure)
  | restat (size : Option Nat) (mtime : Option Int)
  | truncate (length : Nat)
  | pass
  | answer (outcome : Outcome)
deriving Repr

/-- A fault. It matches by the name of an operation that is handed over and by a key, where these
are given; `matched` counts the calls that matched. -/
structure Fault where
  point : FaultPoint
  operation : Option String := none
  key : Option String := none
  skip : Nat := 0
  times : Option Nat := none
  action : FaultAction
  matched : Nat := 0
deriving Repr

namespace Fault

/-- Does the fault match a call? -/
def applies (f : Fault) (point : FaultPoint) (operation : Option String) (key : String) : Bool :=
  f.point == point && (f.operation.isNone || f.operation == operation) && f.key.all (· == key)

/-- Is the fault in force for its next match? -/
def inForce (f : Fault) : Bool :=
  f.skip ≤ f.matched && f.times.all fun times => f.matched < f.skip + times

/-- The action of the first fault in force that matches the call. All matching faults up to that
one count the call. -/
def select (point : FaultPoint) (operation : Option String) (key : String) :
    List Fault → Option FaultAction × List Fault
  | [] => (none, [])
  | f :: rest =>
    if f.applies point operation key then
      let counted := { f with matched := f.matched + 1 }
      if f.inForce then (some f.action, counted :: rest)
      else
        let (action, rest) := select point operation key rest
        (action, counted :: rest)
    else
      let (action, rest) := select point operation key rest
      (action, f :: rest)

end Fault

/-- An operation that was handed over and put aside. -/
structure ParkedCall where
  ticket : Nat
  pool : PoolRef
  operation : Operation
deriving DecidableEq, Repr

/-- A memory cluster on rehearsal. With `direct`, operations that are handed over go to the
cluster itself, without log and faults. -/
structure Rehearsal where
  cluster : MemoryCluster := .empty
  dispatcher : Dispatcher := {}
  faults : List Fault := []
  mtimes : List ((String × String) × Int) := []
  parked : List ParkedCall := []
  log : Array String := #[]
  direct : Bool := false
  refusesCompletions : Bool := false

instance : Inhabited Rehearsal := ⟨{}⟩

namespace Rehearsal

/-- The time of an object for which none was set. -/
def usualTime : Int := 1700000000

/-- Writes a line into the log. -/
def note (r : Rehearsal) (line : String) : Rehearsal := { r with log := r.log.push line }

/-- Hands over the log, which is then empty. -/
def takeLog (r : Rehearsal) : List String × Rehearsal := (r.log.toList, { r with log := #[] })

/-- What the faults do to a call. -/
def check (r : Rehearsal) (point : FaultPoint) (operation : Option String) (key : String) :
    Option FaultAction × Rehearsal :=
  let (action, faults) := Fault.select point operation key r.faults
  (action, { r with faults := faults })

/-- Lets a call pass unless a fault fails it. -/
def guardCall (r : Rehearsal) (point : FaultPoint) (key : String) :
    Except Failure (Option FaultAction) × Rehearsal :=
  match r.check point none key with
  | (some (.fail failure), r) => (.error failure, r)
  | (action, r) => (.ok action, r)

/-- The time that an object is told to have. -/
def timeOf (r : Rehearsal) (pool key : String) : Int := (r.mtimes.lookup (pool, key)).getD usualTime

/-- Sets the time of an object. -/
def setTime (r : Rehearsal) (pool key : String) (time : Int) : Rehearsal :=
  { r with mtimes := ((pool, key), time) :: r.mtimes }

/-! ## Pools -/

/-- Looks a pool up. -/
def openPool (ref : PoolRef) (r : Rehearsal) : Except Failure Unit × Rehearsal :=
  match (r.note ("open_pool " ++ ref.pool)).guardCall .openPool ref.pool with
  | (.error failure, r) => (.error failure, r)
  | (.ok _, r) => (r.cluster.openPool ref.pool, r)

/-- Makes a pool. -/
def createPool (ref : PoolRef) (r : Rehearsal) : Except Failure Unit × Rehearsal :=
  match (r.note ("create_pool " ++ ref.pool)).guardCall .createPool ref.pool with
  | (.error failure, r) => (.error failure, r)
  | (.ok _, r) =>
    let (result, cluster) := r.cluster.createPool ref.pool
    (result, { r with cluster := cluster })

/-! ## Objects -/

/-- The line of the log for an operation. -/
def line : Operation → String
  | .stat key => "stat " ++ key
  | .read key length offset => "read " ++ key ++ " " ++ toString length ++ "@" ++ toString offset
  | .write key data offset =>
    "write " ++ key ++ " " ++ toString data.length ++ "@" ++ toString offset
  | .remove key => "remove " ++ key

/-- The point that an operation passes. -/
def pointOf : Operation → FaultPoint
  | .stat _ => .stat
  | .read _ _ _ => .read
  | .write _ _ _ => .write
  | .remove _ => .remove

/-- The reply with a fixed time, and with what a fault changes in it. -/
def disguise (time : Int) (action : Option FaultAction) : Reply → Reply
  | .stat stat =>
    match action with
    | some (.restat size mtime) => .stat ⟨size.getD stat.size, mtime.getD time⟩
    | _ => .stat ⟨stat.size, time⟩
  | .data bytes =>
    match action with
    | some (.truncate length) => .data (bytes.take length)
    | _ => .data bytes
  | .done => .done

/-- Performs an operation on the cluster itself. -/
def performBare (ref : PoolRef) (operation : Operation) (r : Rehearsal) :
    Ending Reply × Rehearsal :=
  let (ending, cluster) := r.cluster.perform 0 ref.pool operation
  (ending, { r with cluster := cluster })

/-- Performs an operation, with log and faults. -/
def perform (ref : PoolRef) (operation : Operation) (r : Rehearsal) : Ending Reply × Rehearsal :=
  match (r.note (line operation)).guardCall (pointOf operation) operation.key with
  | (.error failure, r) => (.returned (.error failure), r)
  | (.ok action, r) =>
    let (ending, r) := r.performBare ref operation
    (ending.map (disguise (r.timeOf ref.pool operation.key) action), r)

/-- The keys of a pool, in ascending order. -/
def list (ref : PoolRef) (r : Rehearsal) : Except Failure (List String) × Rehearsal :=
  match (r.note "list").guardCall .list "" with
  | (.error failure, r) => (.error failure, r)
  | (.ok _, r) => (.ok (r.cluster.keys ref.pool), r)

/-- The listing comes to a key, or to its end, of which nothing is seen. -/
def advance (_ : PoolRef) (next : Option String) (r : Rehearsal) : Except Failure Unit × Rehearsal :=
  match next with
  | none => (.ok (), r)
  | some key =>
    match (r.note ("next " ++ key)).guardCall .next key with
    | (.error failure, r) => (.error failure, r)
    | (.ok _, r) => (.ok (), r)

/-! ## Operations that are handed over -/

/-- Provides a completion. -/
def allocate (_ : PoolRef) (r : Rehearsal) : Except Failure Unit × Rehearsal :=
  let (result, r) := if r.direct then (.ok none, r) else r.guardCall .alloc ""
  match result with
  | .error failure => (.error failure, r.note "alloc failed")
  | .ok _ =>
    if r.refusesCompletions then (.error (.store "cannot allocate aio completion"), r)
    else (.ok (), r)

/-- The outcome of a call as a completion of the given number; a call that broke off completes
nothing. -/
def completedBy (ticket : Nat) : Ending Reply → Completed
  | .returned outcome => [(ticket, outcome)]
  | .broken _ => []

/-- Performs an operation that was handed over, and completes it. -/
def fulfil (ticket : Nat) (ref : PoolRef) (operation : Operation) (r : Rehearsal) :
    Completed × Rehearsal :=
  let (ending, r) := r.perform ref operation
  (completedBy ticket ending, r)

/-- Takes an operation over, past the faults that can refuse it, park it or make its answer up. -/
def submitChecked (ref : PoolRef) (operation : Operation) (ticket : Nat) (r : Rehearsal) :
    (Except Failure Unit × Completed) × Rehearsal :=
  let label := operation.name ++ " " ++ operation.key
  match r.check .submit operation.name operation.key with
  | (some (.fail failure), r) => ((.error failure, []), r.note ("submit failed " ++ label))
  | (_, r) =>
    match r.check .park operation.name operation.key with
    | (some _, r) =>
      ((.ok (), []),
        { r.note ("park " ++ label) with parked := r.parked ++ [⟨ticket, ref, operation⟩] })
    | (none, r) =>
      match r.check .reply operation.name operation.key with
      | (some (.answer outcome), r) =>
        ((.ok (), [(ticket, outcome)]), r.note ("reply " ++ label))
      | (_, r) =>
        let (completed, r) := r.fulfil ticket ref operation
        ((.ok (), completed), r)

/-- Takes an operation over. -/
def submit (ref : PoolRef) (operation : Operation) (ticket : Nat) (r : Rehearsal) :
    (Except Failure Unit × Completed) × Rehearsal :=
  if r.direct then
    ((.ok (), []), { r with dispatcher := r.dispatcher.submit ref operation ticket })
  else r.submitChecked ref operation ticket

/-- Lets time pass until an operation is carried out. -/
def await (ticket : Nat) (limit : Span) (r : Rehearsal) : Completed × Rehearsal :=
  let (completed, dispatcher, r) := r.dispatcher.await performBare ticket limit r
  (completed, { r with dispatcher := dispatcher })

/-- Performs all parked operations, the oldest first. -/
def fireParked (r : Rehearsal) : Completed × Rehearsal :=
  r.parked.foldl
    (fun (completed, r) call =>
      let (more, r) := r.fulfil call.ticket call.pool call.operation
      (completed ++ more, r))
    ([], { r with parked := [] })

/-- The rehearsal as the gateway sees it. -/
def client : StoreClient Rehearsal where
  openPool := openPool
  createPool := createPool
  perform ref operation r :=
    let (ending, r) := perform ref operation r
    (ending.result, r)
  list := list
  advance := advance
  allocate := allocate
  submit := submit
  await := await

end Rehearsal

end DavGateway
