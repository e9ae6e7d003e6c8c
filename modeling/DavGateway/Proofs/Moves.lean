import DavGateway.Proofs.Flow

/-!
# Moves

What a flow does in a run, move by move: the calls that it makes, each with its answer, and the
items that it hands out between them (`Flow.moves`). A flow hands an item out before it makes its
next call, so the moves tell what was there at which time.
-/

namespace DavGateway

/-- A move of a flow: it makes a call, which is answered, or it hands an item out. -/
inductive Move (C : Type) (R : C → Type) (β : Type) where
  | asked (call : C) (answer : R call)
  | handed (item : β)

namespace Move

variable {C : Type} {R : C → Type} {β γ : Type}

/-- The call that is made. -/
def call? : Move C R β → Option C
  | .asked call _ => some call
  | .handed _ => none

/-- The item that is handed out. -/
def item? : Move C R β → Option β
  | .asked _ _ => none
  | .handed item => some item

/-- The same move with another item. -/
def map (f : β → γ) : Move C R β → Move C R γ
  | .asked call answer => .asked call answer
  | .handed item => .handed (f item)

end Move

namespace Flow

variable {C : Type} {R : C → Type} {α β γ δ σ : Type} {answer : (call : C) → StateM σ (R call)}

/-- The moves of a flow in a run, in their order. -/
def moves (answer : (call : C) → StateM σ (R call)) : Flow C R β α → σ → List (Move C R β)
  | .done _, _ => []
  | .emit item rest, s => .handed item :: rest.moves answer s
  | .ask call resume, s =>
    .asked call (answer call s).1 :: (resume (answer call s).1).moves answer (answer call s).2

/-! A call that is answered leaves the rest of its flow to be run. -/

section Asking

variable {call : C} {resume : R call → Flow C R β α} {reply : R call} {s s' : σ}

theorem moves_of_answer (h : answer call s = (reply, s')) :
    (ask call resume).moves answer s = .asked call reply :: (resume reply).moves answer s' := by
  rw [moves, h]

theorem collect_of_answer (h : answer call s = (reply, s')) :
    (ask call resume).collect answer s = (resume reply).collect answer s' := by
  show (resume (answer call s).1).collect answer (answer call s).2 = _
  rw [h]

end Asking

theorem collect_emit (item : β) (rest : Flow C R β α) (s : σ) :
    (emit item rest).collect answer s =
      ((item :: (rest.collect answer s).1.1, (rest.collect answer s).1.2),
        (rest.collect answer s).2) := rfl

/-- What is handed out is told by the moves. -/
theorem items_moves (x : Flow C R β α) (s : σ) :
    (x.moves answer s).filterMap Move.item? = (x.collect answer s).1.1 := by
  induction x generalizing s with
  | done a => rfl
  | emit item rest ih => exact congrArg (item :: ·) (ih s)
  | ask call resume ih => exact ih _ _

theorem collect_mapItems (f : β → γ) (x : Flow C R β α) (s : σ) :
    (x.mapItems f).collect answer s =
      (((x.collect answer s).1.1.map f, (x.collect answer s).1.2), (x.collect answer s).2) := by
  induction x generalizing s with
  | done a => rfl
  | emit item rest ih =>
    rw [mapItems, collect_emit, collect_emit, ih]
    rfl
  | ask call resume ih => exact ih _ _

theorem moves_mapItems (f : β → γ) (x : Flow C R β α) (s : σ) :
    (x.mapItems f).moves answer s = (x.moves answer s).map (Move.map f) := by
  induction x generalizing s with
  | done a => rfl
  | emit item rest ih => exact congrArg (Move.handed (f item) :: ·) (ih s)
  | ask call resume ih => exact congrArg (_ :: ·) (ih _ _)

/-- What follows a flow begins with its result, where the flow ended. -/
theorem collect_bind (x : Flow C R β α) (f : α → Flow C R β δ) (s : σ) :
    (x.bind f).collect answer s =
      (((x.collect answer s).1.1 ++
          ((f (x.collect answer s).1.2).collect answer (x.collect answer s).2).1.1,
        ((f (x.collect answer s).1.2).collect answer (x.collect answer s).2).1.2),
        ((f (x.collect answer s).1.2).collect answer (x.collect answer s).2).2) := by
  induction x generalizing s with
  | done a => rfl
  | emit item rest ih =>
    rw [emit_bind, collect_emit, collect_emit, ih]
    rfl
  | ask call resume ih => exact ih _ _

theorem moves_bind (x : Flow C R β α) (f : α → Flow C R β δ) (s : σ) :
    (x.bind f).moves answer s = x.moves answer s ++
      (f (x.collect answer s).1.2).moves answer (x.collect answer s).2 := by
  induction x generalizing s with
  | done a => rfl
  | emit item rest ih => exact congrArg (Move.handed item :: ·) (ih s)
  | ask call resume ih => exact congrArg (_ :: ·) (ih _ _)

end Flow

end DavGateway
