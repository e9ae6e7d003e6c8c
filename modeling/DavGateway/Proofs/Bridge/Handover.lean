import DavGateway.Proofs.Bridge.Wires

/-!
# Completions that come during a wait

While a waiter waits, the store completes what it was given before, in any order: the operation that
is waited for, others that were given up, and some of them more than once. Nobody loses the seat on
its slot by this (`Wires.Onward`), and the operation that is waited for has the outcome that came
first for it, and has been called back exactly if there was one (`Wires.Live.completeAll`).
-/

namespace DavGateway

namespace Wires

variable {w w' w'' : Wires} {slot channel ticket : Nat} {outcome : Outcome} {pending : Pending}

/-! ## Nobody loses a seat -/

/-- The board may have gone on, but whoever sits on a slot stays there. -/
structure Onward (w w' : Wires) : Prop where
  sound : w'.Sound
  length : w'.board.bridges.length = w.board.bridges.length
  size : w.board.tickets.size ≤ w'.board.tickets.size
  seated : ∀ {slot channel}, slot < w.board.bridges.length → w.Seated slot channel →
    w'.Seated slot channel

theorem Onward.refl (hw : w.Sound) : w.Onward w := ⟨hw, rfl, Nat.le_refl _, fun _ h => h⟩

theorem Onward.trans (h : w.Onward w') (h' : w'.Onward w'') : w.Onward w'' where
  sound := h'.sound
  length := h'.length.trans h.length
  size := Nat.le_trans h.size h'.size
  seated := fun hslot hseat => h'.seated (h.length.symm ▸ hslot) (h.seated hslot hseat)

/-- What the waiter on a slot does takes no seat away. -/
theorem Keeps.onward (h : w.Keeps w' slot channel) (hseat : w.Seated slot channel)
    (hsize : w.board.tickets.size ≤ w'.board.tickets.size) : w.Onward w' where
  sound := h.sound
  length := h.length
  size := hsize
  seated := by
    intro other channel' _ hother
    by_cases heq : other = slot
    · subst heq
      have hsame : some channel' = some channel := hother.wake.symm.trans hseat.wake
      cases hsame
      exact h.seated
    · exact hother.alike (h.others other heq)

theorem Sound.onward_record (hw : w.Sound) : w.Onward (w.record ticket outcome) :=
  ⟨hw.record, length_record, Nat.le_of_eq size_record.symm, fun _ h => h.record⟩

theorem Sound.onward_callBack (hw : w.Sound) : w.Onward (w.callBack ticket) :=
  ⟨hw.callBack, length_callBack, Nat.le_of_eq size_callBack.symm,
    fun hslot h => h.callBack hw hslot⟩

/-! ## Completions -/

/-- An outcome is recorded, and the callback runs if this was the first one. -/
def complete (w : Wires) (ticket : Nat) (outcome : Outcome) : Wires :=
  if (w.board.record ticket outcome).1 then (w.record ticket outcome).callBack ticket
  else w.record ticket outcome

/-- Completions come one after the other. -/
def completeAll (w : Wires) (outcomes : List (Nat × Outcome)) : Wires :=
  outcomes.foldl (fun w entry => w.complete entry.1 entry.2) w

/-- A completion whose callback is to be run is on the board. -/
theorem lt_size_of_fires (h : (w.board.record ticket outcome).1 = true) :
    ticket < w.board.tickets.size := by
  rcases Option.map_eq_some_iff.mp (Switchboard.armed?_of_record h).1 with ⟨completion, hc, -⟩
  exact Switchboard.lt_size_of_completion? hc

theorem ringing_of_fires (h : (w.board.record ticket outcome).1 = true) :
    ticket ∈ (w.record ticket outcome).ringing := by
  simp [Wires.record, lt_size_of_fires h, h]

theorem board_complete : (w.complete ticket outcome).board = w.board.complete ticket outcome := by
  have hcomplete : w.board.complete ticket outcome =
      if (w.board.record ticket outcome).1 then (w.board.record ticket outcome).2.callBack ticket
      else (w.board.record ticket outcome).2 := rfl
  unfold complete
  rw [hcomplete]
  split
  · next hfires =>
    simp only [Wires.callBack, if_pos (ringing_of_fires hfires)]
    simp only [Wires.record, if_pos (lt_size_of_fires hfires)]
  · unfold Wires.record
    split
    · rfl
    · next hout =>
      -- an unknown completion has no outcome to record
      have hnone : w.board.tickets[ticket]? = none :=
        Array.getElem?_eq_none (Nat.le_of_not_lt hout)
      simp only [Switchboard.record, hnone]

theorem board_completeAll (outcomes : List (Nat × Outcome)) :
    (w.completeAll outcomes).board = w.board.completeAll outcomes := by
  induction outcomes generalizing w with
  | nil => rfl
  | cons entry rest ih =>
    show ((w.complete entry.1 entry.2).completeAll rest).board =
      (w.board.complete entry.1 entry.2).completeAll rest
    rw [ih, board_complete]

theorem Sound.onward_complete (hw : w.Sound) : w.Onward (w.complete ticket outcome) := by
  unfold complete
  split
  · exact hw.onward_record.trans hw.record.onward_callBack
  · exact hw.onward_record

theorem Sound.onward_completeAll (hw : w.Sound) (outcomes : List (Nat × Outcome)) :
    w.Onward (w.completeAll outcomes) := by
  induction outcomes generalizing w with
  | nil => exact .refl hw
  | cons entry rest ih => exact hw.onward_complete.trans (ih hw.onward_complete.sound)

/-! ## The operation that is waited for -/

/-- Of a live operation, it is known what its outcome is, and that its callback has run exactly if
there is one. -/
structure Told (w : Wires) (slot channel : Nat) (pending : Pending) (outcome? : Option Outcome) :
    Prop where
  live : w.Live slot channel pending
  recorded : w.records.lookup pending.ticket = outcome?
  called : pending.ticket ∈ w.called ↔ outcome?.isSome

theorem records_complete :
    (w.complete ticket outcome).records = (w.record ticket outcome).records := by
  unfold complete
  split
  · exact records_callBack
  · rfl

theorem Live.complete (h : w.Live slot channel pending) (hw : w.Sound)
    (hslot : slot < w.board.bridges.length) (hseat : w.Seated slot channel) :
    (w.complete ticket outcome).Live slot channel pending := by
  have hslot' : slot < (w.record ticket outcome).board.bridges.length := length_record.symm ▸ hslot
  unfold Wires.complete
  split
  · exact (h.record hw).callBack hw.record hslot' hseat.record
  · exact h.record hw

/-- Callbacks that have run stay so. -/
theorem called_complete {other : Nat} (h : other ∈ w.called) :
    other ∈ (w.complete ticket outcome).called := by
  unfold complete
  split
  · simp only [callBack]
    split
    · exact List.mem_append_left _ (called_record.symm ▸ h)
    · exact called_record.symm ▸ h
  · exact called_record.symm ▸ h

/-- With the first outcome of a live operation its callback runs. -/
theorem Live.called_complete (h : w.Live slot channel pending) (hw : w.Sound)
    (hnone : w.records.lookup pending.ticket = none) :
    pending.ticket ∈ (w.complete pending.ticket outcome).called := by
  rcases h.outcome with ⟨completion, hc, -⟩
  have hfires : (w.board.record pending.ticket outcome).1 = true := by
    rcases hw.fired hc with ⟨hfired, harmed⟩
    have hunfired : completion.fired = false := by
      rw [hfired, hnone]
      rfl
    rw [Switchboard.record_fst, hc, Option.map_some, Option.getD_some, Completion.record, hunfired]
    simpa [hunfired] using harmed
  unfold Wires.complete
  rw [if_pos hfires]
  simp only [Wires.callBack, if_pos (ringing_of_fires hfires)]
  exact List.mem_append_right _ List.mem_cons_self

theorem Told.complete {outcome? : Option Outcome} (hw : w.Sound)
    (hslot : slot < w.board.bridges.length) (hseat : w.Seated slot channel)
    (h : w.Told slot channel pending outcome?) :
    (w.complete ticket outcome).Told slot channel pending
      (outcome?.or (if pending.ticket = ticket then some outcome else none)) := by
  have hrecorded : (w.complete ticket outcome).records.lookup pending.ticket =
      outcome?.or (if pending.ticket = ticket then some outcome else none) := by
    rw [records_complete, ← h.recorded]
    by_cases hlt : ticket < w.board.tickets.size
    · exact lookup_record hlt
    · -- a completion that is not on the board is not the one that is waited for
      have hne : pending.ticket ≠ ticket := by
        intro heq
        exact hlt (heq ▸ Switchboard.lt_size_of_token? h.live.token)
      rw [Wires.record, if_neg hlt, if_neg hne, Option.or_none]
  refine ⟨h.live.complete hw hslot hseat, hrecorded, ?_⟩
  constructor
  · intro hcalled
    rw [← hrecorded]
    exact hw.onward_complete.sound.rung pending.ticket (List.mem_append_right _ hcalled)
  · intro hsome
    cases houtcome : outcome? with
    | some first => exact called_complete (h.called.mpr (by rw [houtcome]; rfl))
    | none =>
      rw [houtcome] at hsome
      by_cases heq : pending.ticket = ticket
      · subst heq
        exact h.live.called_complete hw (h.recorded.trans houtcome)
      · rw [if_neg heq] at hsome
        cases hsome

/-- After the completions, the operation that is waited for has the outcome that came first. -/
theorem Told.completeAll {outcome? : Option Outcome} (hw : w.Sound)
    (hslot : slot < w.board.bridges.length) (hseat : w.Seated slot channel)
    (h : w.Told slot channel pending outcome?) (outcomes : List (Nat × Outcome)) :
    (w.completeAll outcomes).Told slot channel pending
      (outcome?.or (outcomes.lookup pending.ticket)) := by
  induction outcomes generalizing w outcome? with
  | nil =>
    rw [List.lookup_nil, Option.or_none]
    exact h
  | cons entry rest ih =>
    have honward := @Sound.onward_complete _ entry.1 entry.2 hw
    have hrest := ih honward.sound (honward.length.symm ▸ hslot) (honward.seated hslot hseat)
      (h.complete hw hslot hseat)
    rw [List.lookup_cons]
    rw [Option.or_assoc] at hrest
    by_cases heq : pending.ticket = entry.1
    · rw [if_pos heq, Option.some_or] at hrest
      rw [beq_iff_eq.mpr heq]
      exact hrest
    · rw [if_neg heq, Option.none_or] at hrest
      rw [beq_eq_false_iff_ne.mpr heq]
      exact hrest

end Wires

end DavGateway
