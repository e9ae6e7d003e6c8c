import DavGateway.Flow
import DavGateway.Store.Operation

/-!
# One operation across a bridge

What a waiter does for one operation, as a flow over the single steps on the bridge, the
completion and the store: `beginOperation` stamps and allocates, `submitAndWait` submits, waits and
takes the outcome. Each step is made at one instant, and anything may happen between two of them.
-/

namespace DavGateway

/-- How a wait ends. -/
inductive Wake where
  | woken
  | closed
  | timedOut
deriving DecidableEq, Repr

/-- A step of a waiter. A ticket is the number of an allocated completion. -/
inductive BridgeStep where
  | bump
  | drain
  | allocate (stamp : Nat)
  | submit (ticket : Nat)
  | wait (ticket : Nat) (limit : Span)
  | abandon (stamp : Nat)
  | take (ticket : Nat)
deriving DecidableEq, Repr

/-- What the steps answer: the new generation, the ticket of the completion, how the wait ended,
and the outcome if there is one. -/
def BridgeStep.Answer : BridgeStep → Type
  | .bump => Nat
  | .drain => Unit
  | .allocate _ => Except Failure Nat
  | .submit _ => Except Failure Unit
  | .wait _ _ => Wake
  | .abandon _ => Unit
  | .take _ => Option Outcome

/-- A flow over the steps of a waiter. -/
abbrev BridgeFlow (α : Type) := Flow BridgeStep BridgeStep.Answer Empty α

/-- An operation that has been stamped and has a completion. -/
structure Pending where
  stamp : Nat
  ticket : Nat
deriving DecidableEq, Repr

namespace BridgeFlow

/-- Makes one step. -/
def step (s : BridgeStep) : BridgeFlow s.Answer := Flow.call s

/-- Starts a generation, drops the wakes of the generations before, and allocates a completion. -/
def beginOperation (slot : Nat) : BridgeFlow (Except Failure Pending) := do
  let stamp ← step .bump
  let _ ← step .drain
  match ← step (.allocate stamp) with
  | .error failure => return .error (.allocation slot failure.message)
  | .ok ticket => return .ok ⟨stamp, ticket⟩

/-- Gives an operation up and fails. -/
def giveUp (pending : Pending) (failure : Failure) : BridgeFlow Outcome := do
  let _ ← step (.abandon pending.stamp)
  return .error failure

/-- Submits an operation and waits for its outcome, at most as long as `limit`. -/
def submitAndWait (slot : Nat) (pending : Pending) (limit : Span) : BridgeFlow Outcome := do
  match ← step (.submit pending.ticket) with
  | .error failure => giveUp pending failure
  | .ok () =>
    match ← step (.wait pending.ticket limit) with
    | .timedOut => giveUp pending (.timedOut limit)
    | .closed => giveUp pending (.channelClosed slot)
    | .woken =>
      match ← step (.take pending.ticket) with
      | some outcome => return outcome
      | none =>
        return .error (.internal ("slot " ++ toString slot ++ " woken before generation "
          ++ toString pending.stamp ++ " completed"))

/-- Carries one operation out. -/
def issue (slot : Nat) (limit : Span) : BridgeFlow Outcome := do
  match ← beginOperation slot with
  | .error failure => return .error failure
  | .ok pending => submitAndWait slot pending limit

end BridgeFlow

end DavGateway
