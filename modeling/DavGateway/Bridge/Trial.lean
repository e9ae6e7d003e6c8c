import DavGateway.Bridge.Switchboard

/-!
# A bridge on trial

One bridge driven event by event: sessions open and close, operations begin, wait, complete late
or never, and handles are dropped, in any order. Operations are numbered by their completion, and
two things can be held on to separately: the operation that still can be waited for, and the
handle through which the store completes it.
-/

namespace DavGateway

/-- What the submission of an operation does: it completes the listed operations, then fails, or
completes the operation itself, or leaves it open. -/
structure Submission where
  completes : List (Nat × Outcome) := []
  failure : Option Failure := none
  outcome : Option Outcome := none
deriving Repr

/-- What happens to the bridge. -/
inductive BridgeEvent where
  | openSession
  | closeSession (session : Nat)
  | beginOperation (session : Nat) (refusal : Option Failure)
  | wait (session pending : Nat) (limit : Span) (submission : Submission)
  | run (session : Nat) (limit : Span) (refusal : Option Failure) (submission : Submission)
  | complete (pending : Nat) (outcome : Outcome)
  | isComplete (pending : Nat)
  | take (pending : Nat)
  | releaseHandle (pending : Nat)
  | forgetPending (pending : Nat)
deriving Repr

/-- What an event answers. -/
inductive BridgeReport where
  | unit
  | flag (value : Bool)
  | session (number : Nat)
  | begun (pending : Pending)
  | failed (failure : Failure)
  | outcome (outcome : Outcome)
  | ran (outcome : Outcome) (pending : Option Nat)
  | taken (outcome : Option Outcome)
  | noSession
  | noPending
  | noHandle
deriving Repr

/-- A bridge with its sessions, the operations that can be waited for, and the store's handles. -/
structure BridgeTrial where
  board : Switchboard
  sessions : List Nat := []
  pending : List Pending := []
  handles : List Nat := []
deriving Repr

namespace BridgeTrial

/-- The only slot of the switchboard: it holds one bridge, whatever slot that belongs to. -/
def home : Nat := 0

/-- A fresh bridge for a slot. -/
def fresh (slot : Nat) : BridgeTrial := { board := { bridges := [Bridge.fresh slot] } }

/-- The bridge on trial. -/
def bridge (t : BridgeTrial) : Bridge := t.board.bridge home

/-- Changes the bridge. -/
def onBridge (t : BridgeTrial) (f : Bridge → Bridge) : BridgeTrial :=
  { t with board := t.board.atSlot home f }

/-- Completes an operation through its handle, if the handle is still held. -/
def complete (t : BridgeTrial) (pending : Nat) (outcome : Outcome) : BridgeTrial :=
  if pending ∈ t.handles then { t with board := t.board.complete pending outcome } else t

/-- Carries out a step of a waiter in the given session. `refusal` is what an allocation answers,
and `submission` what a submission does. -/
def answer (session : Nat) (refusal : Option Failure) (submission : Submission) :
    (step : BridgeStep) → StateM BridgeTrial step.Answer
  | .bump => modifyGet fun t =>
    let (generation, board) := t.board.stepAt home Bridge.bump
    (generation, { t with board := board })
  | .drain => modify fun t => t.onBridge fun b => b.drain session
  | .allocate stamp => modifyGet fun t =>
    match refusal with
    | some failure => (.error failure, t)
    | none =>
      let (ticket, board) := t.board.allocate home stamp
      (.ok ticket, { t with board := board, handles := t.handles ++ [ticket] })
  | .submit ticket => modifyGet fun t =>
    let t := submission.completes.foldl (fun t entry => t.complete entry.1 entry.2) t
    match submission.failure, submission.outcome with
    | some failure, _ => (.error failure, t)
    | none, some outcome => (.ok (), { t with board := t.board.complete ticket outcome })
    | none, none => (.ok (), t)
  | .wait _ _ => modifyGet fun t =>
    let (signal, board) := t.board.stepAt home fun b => b.poll session
    (match signal with
      | .woken => .woken
      | .closed => .closed
      | .idle => .timedOut, { t with board := board })
  | .abandon stamp => modify fun t => t.onBridge fun b => b.abandon stamp
  | .take ticket => modifyGet fun t =>
    let (outcome, board) := t.board.take ticket
    (outcome, { t with board := board })

/-- Runs a waiter in a session. -/
def runWaiter {α : Type} (t : BridgeTrial) (session : Nat) (refusal : Option Failure)
    (submission : Submission) (flow : BridgeFlow α) : α × BridgeTrial :=
  (flow.run (answer session refusal submission)).run t

/-- Lets one event happen. -/
def step (t : BridgeTrial) : BridgeEvent → BridgeReport × BridgeTrial
  | .openSession =>
    let (session, board) := t.board.stepAt home Bridge.openSession
    (.session session, { t with board := board, sessions := t.sessions ++ [session] })
  | .closeSession session =>
    if session ∈ t.sessions then
      (.unit, { t.onBridge (fun b => b.closeSession session) with
        sessions := t.sessions.filter (· != session) })
    else (.unit, t)
  | .beginOperation session refusal =>
    if session ∈ t.sessions then
      match t.runWaiter session refusal {} (BridgeFlow.beginOperation t.bridge.slot) with
      | (.ok pending, t) => (.begun pending, { t with pending := t.pending ++ [pending] })
      | (.error failure, t) => (.failed failure, t)
    else (.noSession, t)
  | .wait session number limit submission =>
    match t.pending.find? (·.ticket == number) with
    | some pending =>
      if session ∈ t.sessions then
        let t := { t with pending := t.pending.filter (·.ticket != number) }
        let (outcome, t) := t.runWaiter session none submission
          (BridgeFlow.submitAndWait t.bridge.slot pending limit)
        (.outcome outcome, t)
      else (.noPending, t)
    | none => (.noPending, t)
  | .run session limit refusal submission =>
    if session ∈ t.sessions then
      let allocated := t.board.tickets.size
      let (outcome, t) := t.runWaiter session refusal submission
        (BridgeFlow.issue t.bridge.slot limit)
      (.ran outcome (if allocated < t.board.tickets.size then some allocated else none), t)
    else (.noSession, t)
  | .complete number outcome =>
    if number ∈ t.handles then (.unit, t.complete number outcome) else (.noHandle, t)
  | .isComplete number =>
    if number ∈ t.handles then (.flag (t.board.isComplete number), t) else (.noHandle, t)
  | .take number =>
    if number ∈ t.handles then
      let (outcome, board) := t.board.take number
      (.taken outcome, { t with board := board })
    else (.noHandle, t)
  | .releaseHandle number => (.unit, { t with handles := t.handles.filter (· != number) })
  | .forgetPending number =>
    if t.pending.any (·.ticket == number) then
      (.flag true, { t with pending := t.pending.filter (·.ticket != number) })
    else (.flag false, t)

end BridgeTrial

end DavGateway
