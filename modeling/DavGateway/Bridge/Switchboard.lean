import DavGateway.Bridge.Call
import DavGateway.Bridge.State
import DavGateway.Completion

/-!
# The switchboard

All bridges of a gateway together with the completions allocated through them. A completion keeps
a token, the slot and the stamp of its operation; completing it records the outcome and then fires
the token.
-/

namespace DavGateway

/-- An allocated completion with its token. -/
structure Ticket where
  slot : Nat
  stamp : Nat
  completion : Completion := {}
deriving Repr

/-- The bridges, by slot, and the completions, in order of their allocation. -/
structure Switchboard where
  bridges : List Bridge
  tickets : Array Ticket := #[]
deriving Repr

namespace Switchboard

/-- Unused bridges for the slots below `count`. -/
def fresh (count : Nat) : Switchboard := { bridges := (List.range count).map Bridge.fresh }

/-- The bridge of a slot. -/
def bridge (b : Switchboard) (slot : Nat) : Bridge := b.bridges.getD slot (Bridge.fresh slot)

/-- Changes the bridge of a slot. -/
def atSlot (b : Switchboard) (slot : Nat) (f : Bridge → Bridge) : Switchboard :=
  { b with bridges := b.bridges.modify slot f }

/-- Makes a step on the bridge of a slot that answers something. -/
def stepAt {α : Type} (b : Switchboard) (slot : Nat) (f : Bridge → α × Bridge) : α × Switchboard :=
  let (answer, bridge) := f (b.bridge slot)
  (answer, b.atSlot slot fun _ => bridge)

/-- Allocates a completion with a token. -/
def allocate (b : Switchboard) (slot stamp : Nat) : Nat × Switchboard :=
  (b.tickets.size, { b with tickets := b.tickets.push { slot := slot, stamp := stamp } })

/-- Records an outcome in a completion. The answer says whether its callback is to be run now. -/
def record (b : Switchboard) (ticket : Nat) (outcome : Outcome) : Bool × Switchboard :=
  match b.tickets[ticket]? with
  | none => (false, b)
  | some t =>
    let (fires, completion) := t.completion.record outcome
    (fires, { b with tickets := b.tickets.set! ticket { t with completion := completion } })

/-- Runs the callback of a completion: its token fires. -/
def callBack (b : Switchboard) (ticket : Nat) : Switchboard :=
  match b.tickets[ticket]? with
  | none => b
  | some t => b.atSlot t.slot fun bridge => bridge.fire t.stamp

/-- Records an outcome in a completion, and fires its token if this was the first outcome. -/
def complete (b : Switchboard) (ticket : Nat) (outcome : Outcome) : Switchboard :=
  let (fires, b) := b.record ticket outcome
  if fires then b.callBack ticket else b

/-- Completes several completions in order. -/
def completeAll (b : Switchboard) (outcomes : List (Nat × Outcome)) : Switchboard :=
  outcomes.foldl (fun b entry => b.complete entry.1 entry.2) b

/-- Takes the outcome out of a completion. -/
def take (b : Switchboard) (ticket : Nat) : Option Outcome × Switchboard :=
  match b.tickets[ticket]? with
  | none => (none, b)
  | some t =>
    let (outcome, completion) := t.completion.take
    (outcome, { b with tickets := b.tickets.set! ticket { t with completion := completion } })

/-- Has the completion got an outcome? -/
def isComplete (b : Switchboard) (ticket : Nat) : Bool :=
  match b.tickets[ticket]? with
  | none => false
  | some t => t.completion.isComplete

end Switchboard

end DavGateway
