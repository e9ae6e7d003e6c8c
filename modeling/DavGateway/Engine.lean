import DavGateway.Bridge.Switchboard
import DavGateway.Session
import DavGateway.Slots
import DavGateway.Store.Client

/-!
# The engine

The engine answers the calls of flows. It hands out slots, opens a session on a slot, and carries
the operations of a session out: with blocking scheduling the store performs them while the
session waits, with asynchronous scheduling they go across the bridge of the slot. Closing a
session closes its channel and then gives the slot back.
-/

namespace DavGateway

/-- How operations are carried out. -/
inductive SchedulingMode where
  | blocking
  | async
deriving DecidableEq, Repr

/-- Slots, bridges and stores. -/
structure Engine (σ : Type) where
  mode : SchedulingMode
  slots : SlotPool
  board : Switchboard
  store : σ

namespace Engine

variable {σ : Type}

/-- An engine with unused slots. -/
def create (mode : SchedulingMode) (concurrency : Nat) (store : σ) : Except Failure (Engine σ) := do
  let slots ← SlotPool.create concurrency
  return ⟨mode, slots, Switchboard.fresh concurrency, store⟩

/-- The number of slots that can be had without waiting. -/
def available (e : Engine σ) : Nat := e.slots.available

/-- Asks the store. -/
def onStore {α : Type} (f : σ → α × σ) : StateM (Engine σ) α := modifyGet fun e =>
  let (answer, store) := f e.store
  (answer, { e with store := store })

/-- Makes a step on the switchboard. -/
def onBoard {α : Type} (f : Switchboard → α × Switchboard) : StateM (Engine σ) α :=
  modifyGet fun e =>
    let (answer, board) := f e.board
    (answer, { e with board := board })

/-- Records the outcomes of completions. -/
def complete (completed : Completed) : StateM (Engine σ) Unit :=
  onBoard fun b => ((), b.completeAll completed)

/-- Reads the channel of a session. -/
def poll (slot channel : Nat) : StateM (Engine σ) Signal :=
  onBoard fun b => b.stepAt slot fun bridge => bridge.poll channel

/-- Waits on the channel of a session: a wake that is already there is taken at once, otherwise
the store is given time. -/
def wait (client : StoreClient σ) (slot channel ticket : Nat) (limit : Span) :
    StateM (Engine σ) Wake := do
  match ← poll slot channel with
  | .woken => return .woken
  | .closed => return .closed
  | .idle =>
    complete (← onStore (client.await ticket limit))
    match ← poll slot channel with
    | .woken => return .woken
    | .closed => return .closed
    | .idle => return .timedOut

/-- Makes one step of an operation that goes across a bridge. -/
def bridgeStep (client : StoreClient σ) (session : OpenSession) (channel : Nat)
    (operation : Operation) : (step : BridgeStep) → StateM (Engine σ) step.Answer
  | .bump => onBoard fun b => b.stepAt session.slot Bridge.bump
  | .drain => onBoard fun b => ((), b.atSlot session.slot fun bridge => bridge.drain channel)
  | .allocate stamp => do
    match ← onStore (client.allocate session.pool) with
    | .error failure => return .error failure
    | .ok () => return .ok (← onBoard fun b => b.allocate session.slot stamp)
  | .submit ticket => do
    let (result, completed) ← onStore (client.submit session.pool operation ticket)
    complete completed
    return result
  | .wait ticket limit => wait client session.slot channel ticket limit
  | .abandon stamp => onBoard fun b => ((), b.atSlot session.slot fun bridge => bridge.abandon stamp)
  | .take ticket => onBoard fun b => b.take ticket

/-- Carries an operation of a session out. -/
def operate (client : StoreClient σ) (session : OpenSession) (operation : Operation) :
    StateM (Engine σ) Outcome :=
  match session.channel with
  | none => onStore (client.perform session.pool operation)
  | some channel =>
    (BridgeFlow.issue session.slot session.limit).run (bridgeStep client session channel operation)

/-- Answers a call of a session. Listings are not handed over, whatever the scheduling. -/
def answer (client : StoreClient σ) (session : OpenSession) :
    (call : SessionCall) → StateM (Engine σ) call.Answer
  | .operate operation => operate client session operation
  | .list => onStore (client.list session.pool)
  | .advance next => onStore (client.advance session.pool next)

/-- Opens a session on a slot that has been taken. -/
def openSession (slot : Nat) (pool : PoolRef) (limit : Span) : StateM (Engine σ) OpenSession := do
  match (← get).mode with
  | .blocking => return ⟨slot, none, pool, limit⟩
  | .async =>
    let channel ← onBoard fun b => b.stepAt slot Bridge.openSession
    return ⟨slot, some channel, pool, limit⟩

/-- Takes a slot and opens a session on it. There is no answer while no slot is free. -/
def enter (pool : PoolRef) (limit : Span) :
    OptionT (StateM (Engine σ)) (Except Failure OpenSession) := do
  let acquired ← modifyGet fun e =>
    let (acquired, slots) := e.slots.acquire
    (acquired, { e with slots := slots })
  match acquired with
  | .blocked => failure
  | .failed reason => return .error reason
  | .slot slot =>
    let opening : StateM (Engine σ) OpenSession := openSession slot pool limit
    return .ok (← opening)

/-- Closes a session, and gives its slot back. -/
def leave (session : OpenSession) : StateM (Engine σ) Unit := do
  if let some channel := session.channel then
    onBoard fun b => ((), b.atSlot session.slot fun bridge => bridge.closeSession channel)
  modify fun e => { e with slots := e.slots.release session.slot }

/-- Runs a flow in a session of its own. -/
def inSession {α : Type} (pool : PoolRef) (limit : Span)
    (body : OpenSession → StateM (Engine σ) α) : OptionT (StateM (Engine σ)) (Except Failure α) := do
  match ← enter pool limit with
  | .error reason => return .error reason
  | .ok session =>
    let whole : StateM (Engine σ) α := do
      let result ← body session
      leave session
      return result
    return .ok (← whole)

end Engine

end DavGateway
