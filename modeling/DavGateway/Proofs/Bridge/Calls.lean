import DavGateway.Bridge.Call
import DavGateway.Proofs.Flow

/-!
# The steps of an operation

An operation across a bridge, taken apart at its steps: what is left of `BridgeFlow.issue` after
each answer, and which steps a waiter makes once its operation has been begun.
-/

namespace DavGateway

namespace BridgeFlow

variable (slot : Nat) (limit : Span) (pending : Pending)

/-- What is left of an operation when the store has answered its allocation. -/
def afterAllocate (stamp : Nat) : Except Failure Nat → BridgeFlow Outcome
  | .error failure => .done (.error (.allocation slot failure.message))
  | .ok ticket => submitAndWait slot ⟨stamp, ticket⟩ limit

/-- What is left of an operation when its generation has been started. -/
def afterBump (stamp : Nat) : BridgeFlow Outcome :=
  .ask .drain fun _ => .ask (.allocate stamp) (afterAllocate slot limit stamp)

/-- What is left of an operation that was woken when it has taken the outcome. -/
def afterTake : Option Outcome → BridgeFlow Outcome
  | some outcome => .done outcome
  | none => .done (.error (.internal ("slot " ++ toString slot ++ " woken before generation "
      ++ toString pending.stamp ++ " completed")))

/-- What is left of an operation when its wait has ended. -/
def afterWait : Wake → BridgeFlow Outcome
  | .timedOut => giveUp pending (.timedOut limit)
  | .closed => giveUp pending (.channelClosed slot)
  | .woken => .ask (.take pending.ticket) (afterTake slot pending)

/-- What is left of an operation when the store has answered its submission. -/
def afterSubmit : Except Failure Unit → BridgeFlow Outcome
  | .error failure => giveUp pending failure
  | .ok () => .ask (.wait pending.ticket limit) (afterWait slot limit pending)

theorem issue_eq : issue slot limit = .ask .bump (afterBump slot limit) := by
  unfold issue beginOperation step afterBump
  simp only [Flow.call, Flow.bind_eq, Flow.ask_bind, Flow.done_bind, Flow.pure_eq]
  congr
  funext stamp
  congr
  funext _
  congr
  funext answer
  cases answer <;> rfl

theorem submitAndWait_eq : submitAndWait slot pending limit =
    .ask (.submit pending.ticket) (afterSubmit slot limit pending) := by
  unfold submitAndWait step
  simp only [Flow.call, Flow.bind_eq, Flow.ask_bind, Flow.done_bind, Flow.pure_eq]
  congr
  funext answer
  match answer with
  | .error failure => rfl
  | .ok () =>
    simp only [afterSubmit]
    congr
    funext wake
    cases wake with
    | timedOut => rfl
    | closed => rfl
    | woken =>
      simp only [afterWait]
      congr
      funext taken
      cases taken <;> rfl

end BridgeFlow

/-- The steps of a waiter that are about an operation it has begun. -/
def BridgeStep.Concerns (pending : Pending) : BridgeStep → Prop
  | .submit ticket | .wait ticket _ | .take ticket => ticket = pending.ticket
  | .abandon stamp => stamp = pending.stamp
  | .bump | .drain | .allocate _ => False

theorem BridgeFlow.submitAndWait_only (slot : Nat) (limit : Span) (pending : Pending) :
    (submitAndWait slot pending limit).Only (BridgeStep.Concerns pending) := by
  rw [submitAndWait_eq]
  refine ⟨rfl, fun answer => ?_⟩
  match answer with
  | .error failure => exact ⟨rfl, fun _ => trivial⟩
  | .ok () =>
    refine ⟨rfl, fun wake => ?_⟩
    cases wake with
    | timedOut | closed => exact ⟨rfl, fun _ => trivial⟩
    | woken =>
      refine ⟨rfl, fun taken => ?_⟩
      cases taken <;> trivial

end DavGateway
