import DavGateway.Store.Operation

/-!
# Completions

A completion is shared between the one who waits for an operation and the store that performs it.
The store records the outcome (`Completion.record`) and then, as a second step, runs the callback.
Only the first record has an effect; the outcome is handed over at most once (`Completion.take`).
-/

namespace DavGateway

/-- The state of one completion. `armed` says that the callback has not been taken yet. -/
structure Completion where
  outcome : Option Outcome := none
  fired : Bool := false
  armed : Bool := true
deriving Repr

namespace Completion

/-- Records an outcome. The answer says whether the callback is to be run now. -/
def record (c : Completion) (outcome : Outcome) : Bool × Completion :=
  if c.fired then (false, c)
  else (c.armed, { outcome := some outcome, fired := true, armed := false })

/-- Hands over the recorded outcome, if there is one left. -/
def take (c : Completion) : Option Outcome × Completion := (c.outcome, { c with outcome := none })

/-- Has an outcome been recorded? -/
def isComplete (c : Completion) : Bool := c.fired

end Completion

end DavGateway
