import DavGateway.Proofs.Bridge.Calls
import DavGateway.Proofs.Bridge.Laws

/-!
# What one waiter sees of a shared switchboard

Requests on many slots share a switchboard, and the store completes what it was given at any time.
`Wires` keeps the switchboard together with what the store has done. A waiter that sits on a slot
sees only the bridge of this slot and the completions whose tokens belong to it
(`Wires.Alike`), and `Wires.Point` says where its operation stands: as long as an operation is
live, its channel holds a unit exactly if its own callback has run.
-/

namespace DavGateway

/-- A switchboard with the callbacks that are due, those that have run, and all outcomes that
were handed in for the completions, first come first. -/
structure Wires where
  board : Switchboard
  ringing : List Nat := []
  called : List Nat := []
  records : List (Nat × Outcome) := []

/-- What a store answers when a waiter makes a step, and whether the time is up for a wait. -/
structure StoreReply where
  refusal : Option Failure := none
  rejection : Option Failure := none
  expired : Bool := false
deriving Repr

namespace Wires

/-- The bridge of a slot. -/
def bridge (w : Wires) (slot : Nat) : Bridge := w.board.bridge slot

/-- Changes the bridge of a slot. -/
def atSlot (w : Wires) (slot : Nat) (f : Bridge → Bridge) : Wires :=
  { w with board := w.board.atSlot slot f }

/-- The store hands in an outcome for a completion. -/
def record (w : Wires) (ticket : Nat) (outcome : Outcome) : Wires :=
  if ticket < w.board.tickets.size then
    let (fires, board) := w.board.record ticket outcome
    { w with
      board := board
      ringing := if fires then w.ringing ++ [ticket] else w.ringing
      records := w.records ++ [(ticket, outcome)] }
  else w

/-- The store runs a callback that is due. -/
def callBack (w : Wires) (ticket : Nat) : Wires :=
  if ticket ∈ w.ringing then
    { w with
      board := w.board.callBack ticket
      ringing := w.ringing.erase ticket
      called := w.called ++ [ticket] }
  else w

/-- Carries out a step of the waiter that sits on a slot with a channel. There is no answer to a
wait that finds nothing before its time is up. -/
def answer (w : Wires) (slot channel : Nat) (reply : StoreReply) :
    (step : BridgeStep) → Option step.Answer × Wires
  | .bump =>
    let (generation, board) := w.board.stepAt slot Bridge.bump
    (some generation, { w with board := board })
  | .drain => (some (), w.atSlot slot fun bridge => bridge.drain channel)
  | .allocate stamp =>
    match reply.refusal with
    | some failure => (some (.error failure), w)
    | none =>
      let (ticket, board) := w.board.allocate slot stamp
      (some (.ok ticket), { w with board := board })
  | .submit _ =>
    match reply.rejection with
    | some failure => (some (.error failure), w)
    | none => (some (.ok ()), w)
  | .wait _ _ =>
    let (signal, board) := w.board.stepAt slot fun bridge => bridge.poll channel
    (match signal with
      | .woken => some .woken
      | .closed => some .closed
      | .idle => if reply.expired then some .timedOut else none, { w with board := board })
  | .abandon stamp => (some (), w.atSlot slot fun bridge => bridge.abandon stamp)
  | .take ticket =>
    let (outcome, board) := w.board.take ticket
    (some outcome, { w with board := board })

/-! ## Outcomes and callbacks fit together -/

/-- A completion has fired if an outcome was handed in for it, and its callback is due once. -/
structure Sound (w : Wires) : Prop where
  stamped : w.board.Stamped
  fired : ∀ {ticket completion}, w.board.completion? ticket = some completion →
    completion.fired = (w.records.lookup ticket).isSome ∧ completion.armed = !completion.fired
  known : ∀ {ticket}, (w.records.lookup ticket).isSome → ticket < w.board.tickets.size
  rung : ∀ ticket ∈ w.ringing ++ w.called, (w.records.lookup ticket).isSome
  once : (w.ringing ++ w.called).Nodup

variable {w w' : Wires} {slot channel ticket other : Nat} {outcome : Outcome}

theorem fresh_sound (n : Nat) : ({ board := Switchboard.fresh n } : Wires).Sound where
  stamped := ⟨(fun h => nomatch h), fun h => nomatch h⟩
  fired := fun h => nomatch h
  known := fun h => nomatch h
  rung := nofun
  once := List.nodup_nil

/-- A completion that has just been allocated has no outcome, and its callback is not due. -/
theorem Sound.new (h : w.Sound) : w.records.lookup w.board.tickets.size = none
    ∧ w.board.tickets.size ∉ w.ringing ∧ w.board.tickets.size ∉ w.called := by
  have hnone : ¬ (w.records.lookup w.board.tickets.size).isSome :=
    fun hsome => Nat.lt_irrefl _ (h.known hsome)
  refine ⟨Option.not_isSome_iff_eq_none.mp hnone, fun hr => ?_, fun hc => ?_⟩
  · exact hnone (h.rung _ (List.mem_append_left _ hr))
  · exact hnone (h.rung _ (List.mem_append_right _ hc))

/-- A step at one slot that does not lower its generation changes nothing of this. -/
theorem Sound.atSlot (h : w.Sound) {f : Bridge → Bridge}
    (hf : (w.bridge slot).generation ≤ (f (w.bridge slot)).generation) :
    (w.atSlot slot f).Sound where
  stamped := h.stamped.atSlot hf
  fired := fun hc => h.fired hc
  known := h.known
  rung := h.rung
  once := h.once

theorem Sound.allocate (h : w.Sound) {stamp : Nat} (hle : stamp ≤ (w.bridge slot).generation)
    (hnew : ∀ {ticket stamp'}, w.board.token? ticket = some (slot, stamp') → stamp' < stamp) :
    ({ w with board := (w.board.allocate slot stamp).2 } : Wires).Sound where
  stamped := h.stamped.allocate hle hnew
  fired := by
    intro ticket completion hc
    simp only [Switchboard.completion?_allocate] at hc
    split at hc
    · next heq =>
      cases hc
      rw [heq, h.new.1]
      exact ⟨rfl, rfl⟩
    · exact h.fired hc
  known := by
    intro ticket hsome
    rw [Switchboard.size_allocate]
    exact Nat.lt_succ_of_lt (h.known hsome)
  rung := h.rung
  once := h.once

theorem Sound.take (h : w.Sound) :
    ({ w with board := (w.board.take ticket).2 } : Wires).Sound where
  stamped := h.stamped.take
  fired := by
    intro other completion hc
    simp only [Switchboard.completion?_take] at hc
    split at hc
    · next heq =>
      subst heq
      rcases Option.map_eq_some_iff.mp hc with ⟨old, hold, rfl⟩
      have hfired := h.fired hold
      exact hfired
    · exact h.fired hc
  known := by
    intro other hsome
    rw [Switchboard.size_take]
    exact h.known hsome
  rung := h.rung
  once := h.once

/-- The first outcome that was handed in for a completion is not replaced by a later one. -/
theorem lookup_record (hlt : ticket < w.board.tickets.size) :
    (w.record ticket outcome).records.lookup other =
      (w.records.lookup other).or (if other = ticket then some outcome else none) := by
  simp only [record, if_pos hlt, List.lookup_append]
  congr 1
  by_cases heq : other = ticket
  · simp [heq]
  · have hne : (other == ticket) = false := by simpa using heq
    simp [List.lookup_cons, heq, hne]

theorem lookup_record_of_some {first : Outcome}
    (hfirst : w.records.lookup other = some first) :
    (w.record ticket outcome).records.lookup other = some first := by
  by_cases hlt : ticket < w.board.tickets.size
  · rw [lookup_record hlt, hfirst, Option.some_or]
  · rw [record, if_neg hlt, hfirst]

theorem Sound.record (h : w.Sound) : (w.record ticket outcome).Sound := by
  by_cases hlt : ticket < w.board.tickets.size
  · have hgrow : ∀ {k}, (w.records.lookup k).isSome →
        ((w.record ticket outcome).records.lookup k).isSome := by
      intro k hk
      rcases Option.isSome_iff_exists.mp hk with ⟨first, hfirst⟩
      rw [lookup_record_of_some hfirst]
      rfl
    have hself : ((w.record ticket outcome).records.lookup ticket).isSome := by
      rw [lookup_record hlt, if_pos rfl]
      cases w.records.lookup ticket <;> rfl
    have hboard : (w.record ticket outcome).board = (w.board.record ticket outcome).2 := by
      simp only [Wires.record, if_pos hlt]
    have hringing : (w.record ticket outcome).ringing =
        if (w.board.record ticket outcome).1 then w.ringing ++ [ticket] else w.ringing := by
      simp only [Wires.record, if_pos hlt]
    have hcalled : (w.record ticket outcome).called = w.called := by
      simp only [Wires.record, if_pos hlt]
    refine ⟨hboard ▸ h.stamped.record, ?_, ?_, ?_, ?_⟩
    · -- only the completion itself changes, and only if it had not fired
      intro k completion hc
      rw [hboard, Switchboard.completion?_record] at hc
      by_cases hk : k = ticket
      · subst hk
        rw [if_pos rfl] at hc
        rcases Option.map_eq_some_iff.mp hc with ⟨old, hold, rfl⟩
        have hfired := h.fired hold
        rw [hself]
        unfold Completion.record
        split
        · next hf => exact ⟨hf, hfired.2⟩
        · exact ⟨rfl, rfl⟩
      · rw [if_neg hk] at hc
        rw [lookup_record hlt, if_neg hk, Option.or_none]
        exact h.fired hc
    · intro k hk
      rw [hboard, Switchboard.size_record]
      by_cases heq : k = ticket
      · exact heq ▸ hlt
      · rw [lookup_record hlt, if_neg heq, Option.or_none] at hk
        exact h.known hk
    · intro k hk
      rw [hringing, hcalled] at hk
      by_cases heq : k = ticket
      · exact heq ▸ hself
      · apply hgrow
        apply h.rung
        split at hk
        · simpa [heq] using hk
        · exact hk
    · rw [hringing, hcalled]
      split
      · next hfires =>
        -- a callback that becomes due was neither due nor run before
        have hnot : ticket ∉ w.ringing ++ w.called := by
          intro hmem
          have hsome := h.rung ticket hmem
          have harmed := (Switchboard.armed?_of_record hfires).1
          rcases Option.map_eq_some_iff.mp harmed with ⟨c, hc, hc'⟩
          have hfired := h.fired hc
          rw [hsome] at hfired
          rw [hfired.2, hfired.1] at hc'
          cases hc'
        rw [List.append_assoc, List.singleton_append]
        exact (List.perm_middle.nodup_iff).mpr (List.nodup_cons.mpr ⟨hnot, h.once⟩)
      · exact h.once
  · rw [Wires.record, if_neg hlt]
    exact h

theorem Sound.callBack (h : w.Sound) : (w.callBack ticket).Sound := by
  by_cases hmem : ticket ∈ w.ringing
  · -- the callback goes over from those that are due to those that have run
    have hmove :
        (w.ringing.erase ticket ++ (w.called ++ [ticket])).Perm (w.ringing ++ w.called) := by
      have hcons : (ticket :: (w.ringing.erase ticket ++ w.called)).Perm (w.ringing ++ w.called) :=
        (List.perm_cons_erase hmem).symm.append_right w.called
      rw [← List.append_assoc]
      exact (List.perm_append_singleton ticket _).trans hcons
    simp only [Wires.callBack, if_pos hmem]
    refine ⟨h.stamped.callBack, ?_, ?_, ?_, hmove.nodup_iff.mpr h.once⟩
    · intro k completion hc
      exact h.fired (Switchboard.completion?_callBack ▸ hc)
    · intro k hk
      rw [Switchboard.size_callBack]
      exact h.known hk
    · intro k hk
      exact h.rung k (hmove.mem_iff.mp hk)
  · rw [Wires.callBack, if_neg hmem]
    exact h

/-! ## The view from a slot -/

/-- Nothing that a waiter on the slot can see differs. -/
structure Alike (w w' : Wires) (slot : Nat) : Prop where
  bridge : w'.bridge slot = w.bridge slot
  token : ∀ ticket stamp,
    w'.board.token? ticket = some (slot, stamp) ↔ w.board.token? ticket = some (slot, stamp)
  completion : ∀ {ticket stamp}, w.board.token? ticket = some (slot, stamp) →
    w'.board.completion? ticket = w.board.completion? ticket
  called : w'.called = w.called
  records : w'.records = w.records

theorem Alike.atSlot (h : other ≠ slot) (f : Bridge → Bridge) :
    w.Alike (w.atSlot slot f) other where
  bridge := Switchboard.bridge_atSlot_ne f fun heq => h heq.symm
  token := fun _ _ => Iff.rfl
  completion := fun _ => rfl
  called := rfl
  records := rfl

/-- The waiter on the slot reads a channel to which its bridge sends. -/
structure Seated (w : Wires) (slot channel : Nat) : Prop where
  wake : (w.bridge slot).wake = some channel
  queue : ∃ units, (w.bridge slot).queued? channel = some units

/-- The generation is live, and no token has its stamp. -/
structure Cleared (w : Wires) (slot stamp : Nat) : Prop where
  generation : (w.bridge slot).generation = stamp
  older : ∀ {ticket stamp'}, w.board.token? ticket = some (slot, stamp') → stamp' < stamp

/-- Nobody has taken the outcome of the operation. -/
structure Kept (w : Wires) (slot : Nat) (pending : Pending) : Prop where
  token : w.board.token? pending.ticket = some (slot, pending.stamp)
  outcome : ∃ completion, w.board.completion? pending.ticket = some completion
    ∧ completion.outcome = w.records.lookup pending.ticket

/-- The operation is live, and its waiter is woken exactly if its callback has run. -/
structure Live (w : Wires) (slot channel : Nat) (pending : Pending) : Prop
    extends w.Kept slot pending where
  generation : (w.bridge slot).generation = pending.stamp
  queue : (w.bridge slot).queued? channel = some (if pending.ticket ∈ w.called then 1 else 0)

theorem Seated.alike (h : w.Seated slot channel) (ha : w.Alike w' slot) :
    w'.Seated slot channel := ⟨ha.bridge ▸ h.wake, ha.bridge ▸ h.queue⟩

theorem Cleared.alike {stamp : Nat} (h : w.Cleared slot stamp) (ha : w.Alike w' slot) :
    w'.Cleared slot stamp :=
  ⟨ha.bridge ▸ h.generation, fun ht => h.older ((ha.token _ _).mp ht)⟩

theorem Kept.alike {pending : Pending} (h : w.Kept slot pending) (ha : w.Alike w' slot) :
    w'.Kept slot pending := by
  refine ⟨(ha.token _ _).mpr h.token, ?_⟩
  rw [ha.completion h.token, ha.records]
  exact h.outcome

theorem Live.alike {pending : Pending} (h : w.Live slot channel pending)
    (ha : w.Alike w' slot) : w'.Live slot channel pending :=
  ⟨h.toKept.alike ha, ha.bridge ▸ h.generation, by rw [ha.bridge, ha.called, h.queue]⟩

/-! ### Outcomes come in -/

@[simp] theorem bridge_record : (w.record ticket outcome).bridge slot = w.bridge slot := by
  unfold record bridge
  split
  · exact Switchboard.bridge_record
  · rfl

@[simp] theorem token?_record :
    (w.record ticket outcome).board.token? other = w.board.token? other := by
  unfold record
  split
  · exact Switchboard.token?_record
  · rfl

@[simp] theorem called_record : (w.record ticket outcome).called = w.called := by
  unfold record
  split <;> rfl

@[simp] theorem length_record :
    (w.record ticket outcome).board.bridges.length = w.board.bridges.length := by
  unfold record
  split
  · exact congrArg List.length Switchboard.bridges_record
  · rfl

@[simp] theorem size_record :
    (w.record ticket outcome).board.tickets.size = w.board.tickets.size := by
  unfold record
  split
  · exact Switchboard.size_record
  · rfl

theorem Kept.record {pending : Pending} (hw : w.Sound) (h : w.Kept slot pending) :
    (w.record ticket outcome).Kept slot pending := by
  refine ⟨token?_record.trans h.token, ?_⟩
  rcases h.outcome with ⟨completion, hc, houtcome⟩
  by_cases hlt : ticket < w.board.tickets.size
  · rw [lookup_record hlt]
    have hboard : (w.record ticket outcome).board = (w.board.record ticket outcome).2 := by
      simp only [Wires.record, if_pos hlt]
    rw [hboard, Switchboard.completion?_record]
    by_cases heq : pending.ticket = ticket
    · subst heq
      have hfired := (hw.fired hc).1
      rw [if_pos rfl, if_pos rfl, hc]
      refine ⟨_, rfl, ?_⟩
      show (completion.record outcome).2.outcome = _
      unfold Completion.record
      cases hlookup : w.records.lookup pending.ticket with
      | none =>
        rw [hlookup] at hfired
        rw [hfired]
        rfl
      | some first =>
        -- the completion has fired: the first outcome stays
        rw [hlookup] at hfired
        rw [hfired]
        exact houtcome.trans hlookup
    · rw [if_neg heq, if_neg heq, Option.or_none]
      exact ⟨completion, hc, houtcome⟩
  · rw [Wires.record, if_neg hlt]
    exact ⟨completion, hc, houtcome⟩

theorem Seated.record (h : w.Seated slot channel) :
    (w.record ticket outcome).Seated slot channel :=
  ⟨by rw [bridge_record, h.wake], by rw [bridge_record]; exact h.queue⟩

theorem Cleared.record {stamp : Nat} (h : w.Cleared slot stamp) :
    (w.record ticket outcome).Cleared slot stamp :=
  ⟨by rw [bridge_record, h.generation], fun ht => h.older (token?_record.symm.trans ht)⟩

theorem Live.record {pending : Pending} (hw : w.Sound) (h : w.Live slot channel pending) :
    (w.record ticket outcome).Live slot channel pending :=
  ⟨h.toKept.record hw, by rw [bridge_record, h.generation],
    by rw [bridge_record, called_record, h.queue]⟩

/-! ### Callbacks run -/

/-- A callback that is due fires a token on its own bridge, and nothing happens elsewhere. -/
theorem Sound.callBack_cases (hw : w.Sound) (hslot : slot < w.board.bridges.length)
    (ticket : Nat) : w.callBack ticket = w ∨ ticket ∈ w.ringing ∧ ∃ home stamp,
      w.board.token? ticket = some (home, stamp)
        ∧ (w.callBack ticket).called = w.called ++ [ticket]
        ∧ (w.callBack ticket).bridge slot =
          if slot = home then (w.bridge slot).fire stamp else w.bridge slot := by
  by_cases hmem : ticket ∈ w.ringing
  · have hlt := hw.known (hw.rung ticket (List.mem_append_left _ hmem))
    obtain ⟨⟨home, stamp⟩, htoken⟩ : ∃ token, w.board.token? ticket = some token := by
      rw [Switchboard.token?, Array.getElem?_eq_getElem hlt]
      exact ⟨_, rfl⟩
    refine .inr ⟨hmem, home, stamp, htoken, ?_, ?_⟩
    · rw [Wires.callBack, if_pos hmem]
    · simp only [Wires.callBack, if_pos hmem, bridge, Switchboard.callBack_eq htoken]
      split
      · next heq =>
        subst heq
        exact Switchboard.bridge_atSlot _ hslot
      · next hne => exact Switchboard.bridge_atSlot_ne _ fun heq => hne heq.symm
  · exact .inl (if_neg hmem)

@[simp] theorem token?_callBack :
    (w.callBack ticket).board.token? other = w.board.token? other := by
  unfold callBack
  split
  · exact Switchboard.token?_callBack
  · rfl

@[simp] theorem completion?_callBack :
    (w.callBack ticket).board.completion? other = w.board.completion? other := by
  unfold callBack
  split
  · exact Switchboard.completion?_callBack
  · rfl

@[simp] theorem records_callBack : (w.callBack ticket).records = w.records := by
  unfold callBack
  split <;> rfl

@[simp] theorem length_callBack :
    (w.callBack ticket).board.bridges.length = w.board.bridges.length := by
  unfold callBack
  split
  · exact Switchboard.length_callBack
  · rfl

@[simp] theorem size_callBack :
    (w.callBack ticket).board.tickets.size = w.board.tickets.size := by
  unfold callBack
  split
  · exact Switchboard.size_callBack
  · rfl

theorem Kept.callBack {pending : Pending} (h : w.Kept slot pending) :
    (w.callBack ticket).Kept slot pending := by
  refine ⟨token?_callBack.trans h.token, ?_⟩
  rw [completion?_callBack, records_callBack]
  exact h.outcome

theorem Cleared.callBack {stamp : Nat} (hw : w.Sound) (hslot : slot < w.board.bridges.length)
    (h : w.Cleared slot stamp) : (w.callBack ticket).bridge slot = w.bridge slot
      ∧ (w.callBack ticket).Cleared slot stamp := by
  have hbridge : (w.callBack ticket).bridge slot = w.bridge slot := by
    rcases hw.callBack_cases hslot ticket with heq | ⟨-, home, stamp', htoken, -, hbridge⟩
    · rw [heq]
    · rw [hbridge]
      split
      · next heq =>
        -- a token of this slot is older than the live generation, and does nothing
        have hlt := h.older (heq ▸ htoken)
        exact Bridge.fire_of_ne _ (h.generation ▸ Nat.ne_of_lt hlt)
      · rfl
  exact ⟨hbridge, hbridge ▸ h.generation, fun ht => h.older (token?_callBack.symm.trans ht)⟩

theorem Seated.callBack (hw : w.Sound) (hslot : slot < w.board.bridges.length)
    (h : w.Seated slot channel) : (w.callBack ticket).Seated slot channel := by
  rcases hw.callBack_cases hslot ticket with heq | ⟨-, home, stamp, -, -, hbridge⟩
  · rw [heq]
    exact h
  · rcases h.queue with ⟨units, hunits⟩
    have hmem : channel ∈ (w.bridge slot).queues.map (·.1) :=
      List.mem_map.mpr ⟨_, Bridge.mem_queues_of_queued? _ hunits, rfl⟩
    split at hbridge
    · refine ⟨by rw [hbridge, Bridge.wake_fire, h.wake], Bridge.queued?_isSome_of_mem _ ?_⟩
      rw [hbridge, Bridge.sessions_fire]
      exact hmem
    · exact ⟨hbridge ▸ h.wake, hbridge ▸ h.queue⟩

/-- Only its own callback wakes the waiter of a live operation, and it does so once. -/
theorem Live.callBack {pending : Pending} (hw : w.Sound) (hslot : slot < w.board.bridges.length)
    (hseat : w.Seated slot channel) (h : w.Live slot channel pending) :
    (w.callBack ticket).Live slot channel pending := by
  rcases hw.callBack_cases hslot ticket with heq | ⟨hmem, home, stamp, htoken, hcalled, hbridge⟩
  · rw [heq]
    exact h
  · refine ⟨h.toKept.callBack, ?_, ?_⟩
    · rw [hbridge]
      split
      · rw [Bridge.generation_fire, h.generation]
      · exact h.generation
    · rw [hcalled]
      by_cases hown : home = slot ∧ stamp = pending.stamp
      · -- no two tokens of a slot share a stamp, so this is the own callback, for the first time
        rcases hown with ⟨rfl, rfl⟩
        have hticket := hw.stamped.eq_of_token? htoken h.token
        subst hticket
        have hfirst : pending.ticket ∉ w.called := fun hc =>
          (List.nodup_append.mp hw.once).2.2 _ hmem _ hc rfl
        rw [hbridge, if_pos rfl, ← h.generation, Bridge.fire_of_wake_some _ hseat.wake,
          Bridge.queued?_setQueued, if_pos rfl, h.queue, if_neg hfirst, if_pos (by simp)]
        rfl
      · -- the token of another operation is on another bridge, or its stamp is not live
        have hother : pending.ticket ≠ ticket := by
          intro heq
          rw [← heq, h.token] at htoken
          cases htoken
          exact hown ⟨rfl, rfl⟩
        have hsame : (w.callBack ticket).bridge slot = w.bridge slot := by
          rw [hbridge]
          split
          · next heq =>
            refine Bridge.fire_of_ne _ fun hlive => hown ⟨heq.symm, hlive.trans h.generation⟩
          · rfl
        rw [hsame, h.queue]
        simp [hother]

/-! ## What a waiter does -/

/-- What a step of the waiter on a slot keeps. -/
structure Keeps (w w' : Wires) (slot channel : Nat) : Prop where
  sound : w'.Sound
  length : w'.board.bridges.length = w.board.bridges.length
  seated : w'.Seated slot channel
  others : ∀ other, other ≠ slot → w.Alike w' other
  records : w'.records = w.records

theorem Alike.refl (w : Wires) (slot : Nat) : w.Alike w slot :=
  ⟨rfl, fun _ _ => Iff.rfl, fun _ => rfl, rfl, rfl⟩

theorem Keeps.refl (hw : w.Sound) (hseat : w.Seated slot channel) : w.Keeps w slot channel :=
  ⟨hw, rfl, hseat, fun other _ => Alike.refl w other, rfl⟩

/-- A step on the bridge of the slot that lowers no generation and closes no channel. -/
theorem Keeps.atSlot (hw : w.Sound) (hslot : slot < w.board.bridges.length) {f : Bridge → Bridge}
    (hgeneration : (w.bridge slot).generation ≤ (f (w.bridge slot)).generation)
    (hwake : (f (w.bridge slot)).wake = some channel)
    (hqueue : ∃ units, (f (w.bridge slot)).queued? channel = some units) :
    w.Keeps (w.atSlot slot f) slot channel where
  sound := hw.atSlot hgeneration
  length := Switchboard.length_atSlot ..
  seated := by
    have hbridge : (w.atSlot slot f).bridge slot = f (w.bridge slot) :=
      Switchboard.bridge_atSlot f hslot
    exact ⟨hbridge ▸ hwake, hbridge ▸ hqueue⟩
  others := fun _ hne => Alike.atSlot hne f
  records := rfl

/-- A session is opened on a slot: its bridge sends to the new channel. -/
theorem Sound.openSession (hw : w.Sound) (hslot : slot < w.board.bridges.length) :
    w.Keeps (w.atSlot slot fun _ => (w.bridge slot).openSession.2) slot
      (w.bridge slot).openSession.1 := by
  refine .atSlot hw hslot (Nat.le_refl _) rfl (Bridge.queued?_isSome_of_mem _ ?_)
  simp [Bridge.openSession]

/-- Starting a generation makes all tokens of the slot old. -/
theorem Sound.bump (hw : w.Sound) (hslot : slot < w.board.bridges.length)
    (hseat : w.Seated slot channel) :
    w.Keeps (w.atSlot slot fun _ => (w.bridge slot).bump.2) slot channel
      ∧ (w.atSlot slot fun _ => (w.bridge slot).bump.2).Cleared slot (w.bridge slot).bump.1 := by
  refine ⟨Keeps.atSlot hw hslot (Nat.le_succ _) hseat.wake hseat.queue, ?_, ?_⟩
  · have hbridge : (w.atSlot slot fun _ => (w.bridge slot).bump.2).bridge slot =
        (w.bridge slot).bump.2 := Switchboard.bridge_atSlot _ hslot
    rw [hbridge]
    rfl
  · -- stamps were no larger than the generation before
    intro ticket stamp ht
    exact Nat.lt_succ_of_le (hw.stamped.le_generation ht)

/-- Emptying the channel leaves the generation alone. -/
theorem Cleared.drain {stamp : Nat} (hw : w.Sound) (hslot : slot < w.board.bridges.length)
    (hseat : w.Seated slot channel) (h : w.Cleared slot stamp) :
    w.Keeps (w.atSlot slot fun bridge => bridge.drain channel) slot channel
      ∧ (w.atSlot slot fun bridge => bridge.drain channel).Cleared slot stamp
      ∧ ((w.atSlot slot fun bridge => bridge.drain channel).bridge slot).queued? channel =
        some 0 := by
  rcases hseat.queue with ⟨units, hunits⟩
  have hempty : ((w.bridge slot).drain channel).queued? channel = some 0 := by
    rw [Bridge.drain, Bridge.queued?_setQueued, if_pos rfl, hunits]
    rfl
  have hbridge : (w.atSlot slot fun bridge => bridge.drain channel).bridge slot =
      (w.bridge slot).drain channel := Switchboard.bridge_atSlot _ hslot
  refine ⟨Keeps.atSlot hw hslot (Nat.le_refl _) hseat.wake ⟨0, hempty⟩, ⟨?_, h.older⟩, ?_⟩
  · rw [hbridge, Bridge.generation_drain, h.generation]
  · rw [hbridge, hempty]

/-- A completion that is allocated with an empty channel belongs to a live operation. -/
theorem Cleared.allocate {stamp : Nat} (hw : w.Sound) (hseat : w.Seated slot channel)
    (h : w.Cleared slot stamp) (hempty : (w.bridge slot).queued? channel = some 0) :
    w.Keeps { w with board := (w.board.allocate slot stamp).2 } slot channel
      ∧ ({ w with board := (w.board.allocate slot stamp).2 } : Wires).Live slot channel
        ⟨stamp, w.board.tickets.size⟩ := by
  rcases hw.new with ⟨hunknown, -, huncalled⟩
  refine ⟨⟨?_, rfl, ⟨hseat.wake, hseat.queue⟩, ?_, rfl⟩, ⟨?_, {}, ?_, hunknown.symm⟩,
    h.generation, ?_⟩
  · exact hw.allocate (Nat.le_of_eq h.generation.symm) h.older
  · intro other hne
    refine ⟨rfl, ?_, ?_, rfl, rfl⟩
    · intro ticket stamp'
      simp only [Switchboard.token?_allocate]
      split
      · next heq =>
        rw [heq, Switchboard.token?_eq_none_of_le (Nat.le_refl _)]
        simp [hne.symm]
      · exact Iff.rfl
    · intro ticket stamp' ht
      rw [Switchboard.completion?_allocate,
        if_neg (Nat.ne_of_lt (Switchboard.lt_size_of_token? ht))]
  · rw [Switchboard.token?_allocate, if_pos rfl]
  · rw [Switchboard.completion?_allocate, if_pos rfl]
  · exact hempty.trans (by rw [if_neg huncalled])

/-- The waiter of a live operation whose callback has run finds a unit, and takes it out. -/
theorem Live.poll_woken {pending : Pending} (hw : w.Sound) (hslot : slot < w.board.bridges.length)
    (hseat : w.Seated slot channel) (h : w.Live slot channel pending)
    (hcalled : pending.ticket ∈ w.called) :
    ∃ bridge, (w.bridge slot).poll channel = (.woken, bridge)
      ∧ w.Keeps (w.atSlot slot fun _ => bridge) slot channel
      ∧ (w.atSlot slot fun _ => bridge).Kept slot pending := by
  have hqueue := h.queue
  rw [if_pos hcalled] at hqueue
  refine ⟨(w.bridge slot).setQueued channel fun _ => 0, ?_, ?_, h.token, h.outcome⟩
  · unfold Bridge.poll
    rw [hqueue]
  · refine Keeps.atSlot hw hslot (Nat.le_refl _) hseat.wake ⟨0, ?_⟩
    rw [Bridge.queued?_setQueued, if_pos rfl, hqueue]
    rfl

/-- The waiter of a live operation whose callback has not run finds nothing. -/
theorem Live.poll_idle {pending : Pending} (hw : w.Sound) (hslot : slot < w.board.bridges.length)
    (hseat : w.Seated slot channel) (h : w.Live slot channel pending)
    (hcalled : pending.ticket ∉ w.called) :
    (w.bridge slot).poll channel = (.idle, w.bridge slot)
      ∧ w.Keeps (w.atSlot slot fun _ => w.bridge slot) slot channel
      ∧ (w.atSlot slot fun _ => w.bridge slot).Live slot channel pending := by
  have hqueue := h.queue
  rw [if_neg hcalled] at hqueue
  have hsame : w.Alike (w.atSlot slot fun _ => w.bridge slot) slot :=
    ⟨Switchboard.bridge_atSlot _ hslot, fun _ _ => Iff.rfl, fun _ => rfl, rfl, rfl⟩
  refine ⟨?_, Keeps.atSlot hw hslot (Nat.le_refl _) hseat.wake hseat.queue, h.alike hsame⟩
  unfold Bridge.poll
  rw [hqueue, if_pos hseat.wake]

/-- Taking the outcome of an operation is seen on its own slot only. -/
theorem Kept.take {pending : Pending} (hw : w.Sound) (hseat : w.Seated slot channel)
    (h : w.Kept slot pending) :
    w.Keeps { w with board := (w.board.take pending.ticket).2 } slot channel
      ∧ (w.board.take pending.ticket).1 = w.records.lookup pending.ticket := by
  refine ⟨⟨hw.take, congrArg List.length Switchboard.bridges_take, ?_, ?_, rfl⟩, ?_⟩
  · have hbridge : ({ w with board := (w.board.take pending.ticket).2 } : Wires).bridge slot =
        w.bridge slot := Switchboard.bridge_take
    exact ⟨hbridge ▸ hseat.wake, hbridge ▸ hseat.queue⟩
  · intro other hne
    refine ⟨Switchboard.bridge_take, fun _ _ => by rw [Switchboard.token?_take], ?_, rfl, rfl⟩
    intro ticket stamp ht
    -- the completion that is taken from is not one of another slot
    have hticket : ticket ≠ pending.ticket := by
      intro heq
      rw [heq, h.token] at ht
      cases ht
      exact hne rfl
    rw [Switchboard.completion?_take, if_neg hticket]
  · rcases h.outcome with ⟨completion, hc, houtcome⟩
    rw [Switchboard.take_fst, hc, Option.bind_some, houtcome]

end Wires

end DavGateway
