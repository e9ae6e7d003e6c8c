import DavGateway.Bridge.Switchboard
import Mathlib.Data.List.Nodup

/-!
# Laws of bridges and switchboards

What the single steps do to a generation, to a wake channel and to the queues, and what a
switchboard keeps while they are made: a step at one slot leaves the other slots alone, and stamps
stay in order (`Switchboard.Stamped`), which is why no two tokens of a slot have the same stamp.
-/

namespace DavGateway

namespace Bridge

variable (b : Bridge)

/-! ## One bridge -/

@[simp] theorem generation_setQueued (session : Nat) (f : Nat → Nat) :
    (b.setQueued session f).generation = b.generation := rfl

@[simp] theorem wake_setQueued (session : Nat) (f : Nat → Nat) :
    (b.setQueued session f).wake = b.wake := rfl

theorem queued?_setQueued (session other : Nat) (f : Nat → Nat) :
    (b.setQueued session f).queued? other =
      if other = session then (b.queued? other).map f else b.queued? other := by
  unfold queued? setQueued
  induction b.queues with
  | nil => simp
  | cons entry rest ih =>
    obtain ⟨owner, queued⟩ := entry
    by_cases hentry : owner = session
    · by_cases hother : other = owner
      · simp [hentry, hother]
      · have hne : (other == owner) = false := by simpa using hother
        simp [List.lookup_cons, hentry, hentry ▸ hne] at ih ⊢
        exact ih
    · by_cases hother : other = owner
      · subst hother
        simp [hentry]
      · have hne : (other == owner) = false := by simpa using hother
        simp only [List.map_cons, if_neg hentry, List.lookup_cons, hne]
        exact ih

/-- Changing the number of units leaves the sessions of the queues alone. -/
@[simp] theorem sessions_setQueued (session : Nat) (f : Nat → Nat) :
    (b.setQueued session f).queues.map (·.1) = b.queues.map (·.1) := by
  simp only [setQueued, List.map_map]
  apply List.map_congr_left
  intro entry _
  simp only [Function.comp_apply]
  split <;> rfl

theorem mem_setQueued {session : Nat} {f : Nat → Nat} {entry : Nat × Nat}
    (h : entry ∈ (b.setQueued session f).queues) :
    (∃ n, (session, n) ∈ b.queues ∧ entry = (session, f n)) ∨
      entry.1 ≠ session ∧ entry ∈ b.queues := by
  rcases List.mem_map.mp h with ⟨old, hold, rfl⟩
  by_cases hsession : old.1 = session
  · subst hsession
    exact .inl ⟨old.2, hold, if_pos rfl⟩
  · rw [if_neg hsession]
    exact .inr ⟨hsession, hold⟩

theorem mem_queues_of_queued? {session n : Nat} (h : b.queued? session = some n) :
    (session, n) ∈ b.queues := by
  rcases List.lookup_eq_some_iff.mp h with ⟨front, back, hqueues, -⟩
  rw [hqueues]
  exact List.mem_append_right _ List.mem_cons_self

theorem queued?_isSome_of_mem {session : Nat} (h : session ∈ b.queues.map (·.1)) :
    ∃ n, b.queued? session = some n := by
  rcases List.mem_map.mp h with ⟨entry, hentry, rfl⟩
  have hsome : (b.queues.lookup entry.1).isSome := by
    rw [List.lookup_isSome_iff]
    exact ⟨entry, hentry, beq_self_eq_true _⟩
  exact Option.isSome_iff_exists.mp hsome

@[simp] theorem generation_drain (session : Nat) :
    (b.drain session).generation = b.generation := rfl

@[simp] theorem wake_drain (session : Nat) : (b.drain session).wake = b.wake := rfl

@[simp] theorem generation_openSession : b.openSession.2.generation = b.generation := rfl

@[simp] theorem wake_openSession : b.openSession.2.wake = some b.openSession.1 := rfl

@[simp] theorem generation_closeSession (session : Nat) :
    (b.closeSession session).generation = b.generation := rfl

@[simp] theorem wake_closeSession (session : Nat) : (b.closeSession session).wake = none := rfl

/-- A token whose stamp is not the live generation changes nothing. -/
theorem fire_of_ne {stamp : Nat} (h : stamp ≠ b.generation) : b.fire stamp = b :=
  if_neg fun heq => h heq.symm

/-- Without a channel nothing changes either. -/
theorem fire_of_wake_none (stamp : Nat) (h : b.wake = none) : b.fire stamp = b := by
  unfold fire
  rw [h]
  exact ite_self b

/-- The live token puts one unit into the channel. -/
theorem fire_of_wake_some {session : Nat} (h : b.wake = some session) :
    b.fire b.generation = b.setQueued session (· + 1) := by
  unfold fire
  rw [if_pos rfl, h]

@[simp] theorem generation_fire (stamp : Nat) : (b.fire stamp).generation = b.generation := by
  unfold fire
  split
  · split <;> rfl
  · rfl

@[simp] theorem wake_fire (stamp : Nat) : (b.fire stamp).wake = b.wake := by
  unfold fire
  split
  · split <;> rfl
  · rfl

@[simp] theorem sessions_fire (stamp : Nat) :
    (b.fire stamp).queues.map (·.1) = b.queues.map (·.1) := by
  unfold fire
  split
  · split
    · exact sessions_setQueued ..
    · rfl
  · rfl

/-- A token adds at most one unit to a queue. -/
theorem mem_fire_le {stamp : Nat} {entry : Nat × Nat} (h : entry ∈ (b.fire stamp).queues)
    (hzero : ∀ entry ∈ b.queues, entry.2 = 0) : entry.2 ≤ 1 := by
  unfold fire at h
  split at h
  · split at h
    · rcases b.mem_setQueued h with ⟨n, hn, rfl⟩ | ⟨-, hmem⟩
      · exact Nat.succ_le_succ (Nat.le_of_eq (hzero _ hn))
      · exact hzero entry hmem ▸ Nat.zero_le 1
    · exact hzero entry h ▸ Nat.zero_le 1
  · exact hzero entry h ▸ Nat.zero_le 1

@[simp] theorem generation_poll (session : Nat) :
    (b.poll session).2.generation = b.generation := by
  unfold poll
  split <;> rfl

@[simp] theorem wake_poll (session : Nat) : (b.poll session).2.wake = b.wake := by
  unfold poll
  split <;> rfl

@[simp] theorem sessions_poll (session : Nat) :
    (b.poll session).2.queues.map (·.1) = b.queues.map (·.1) := by
  unfold poll
  split
  · exact sessions_setQueued ..
  · rfl

/-- A look into a channel takes at most one unit out. -/
theorem mem_poll {session : Nat} {entry : Nat × Nat} (h : entry ∈ (b.poll session).2.queues) :
    entry ∈ b.queues ∨ (entry.1, entry.2 + 1) ∈ b.queues := by
  unfold poll at h
  split at h
  · next n hqueued =>
    rcases b.mem_setQueued h with ⟨-, -, rfl⟩ | ⟨-, hmem⟩
    · exact .inr (b.mem_queues_of_queued? hqueued)
    · exact .inl hmem
  · exact .inl h

@[simp] theorem wake_abandon (stamp : Nat) : (b.abandon stamp).wake = b.wake := by
  unfold abandon
  split <;> rfl

@[simp] theorem queues_abandon (stamp : Nat) : (b.abandon stamp).queues = b.queues := by
  unfold abandon
  split <;> rfl

theorem generation_abandon (stamp : Nat) :
    (b.abandon stamp).generation = if b.generation = stamp then b.generation + 1
      else b.generation := by
  unfold abandon
  split <;> rfl

theorem generation_le_abandon (stamp : Nat) :
    b.generation ≤ (b.abandon stamp).generation := by
  rw [generation_abandon]
  split
  · exact Nat.le_succ _
  · exact Nat.le_refl _

end Bridge

namespace Switchboard

variable {b : Switchboard} {slot other ticket : Nat}

/-! ## Steps at one slot -/

@[simp] theorem tickets_atSlot (b : Switchboard) (slot : Nat) (f : Bridge → Bridge) :
    (b.atSlot slot f).tickets = b.tickets := rfl

@[simp] theorem length_atSlot (b : Switchboard) (slot : Nat) (f : Bridge → Bridge) :
    (b.atSlot slot f).bridges.length = b.bridges.length := List.length_modify ..

theorem bridge_atSlot (f : Bridge → Bridge) (h : slot < b.bridges.length) :
    (b.atSlot slot f).bridge slot = f (b.bridge slot) := by
  simp [bridge, atSlot, h]

theorem bridge_of_length_le (h : b.bridges.length ≤ slot) : b.bridge slot = Bridge.fresh slot := by
  simp [bridge, h]

theorem bridge_atSlot_ne (f : Bridge → Bridge) (h : slot ≠ other) :
    (b.atSlot slot f).bridge other = b.bridge other := by
  simp [bridge, atSlot, h]

@[simp] theorem length_fresh (count : Nat) : (fresh count).bridges.length = count := by
  simp [fresh]

/-- A step that does not lower the generation of its own bridge lowers none. -/
theorem generation_le_atSlot {f : Bridge → Bridge}
    (hf : (b.bridge slot).generation ≤ (f (b.bridge slot)).generation) :
    (b.bridge other).generation ≤ ((b.atSlot slot f).bridge other).generation := by
  by_cases hne : slot = other
  · subst hne
    -- a step at a slot that does not exist changes nothing
    by_cases hlt : slot < b.bridges.length
    · rw [bridge_atSlot f hlt]
      exact hf
    · have hsame : b.atSlot slot f = b := by
        simp only [atSlot, List.modify_eq_self (Nat.not_lt.mp hlt)]
      exact Nat.le_of_eq (by rw [hsame])
  · exact Nat.le_of_eq (by rw [bridge_atSlot_ne f hne])

/-! ## Tokens and completions -/

/-- The slot and the stamp of the token that an allocated completion keeps. -/
def token? (b : Switchboard) (ticket : Nat) : Option (Nat × Nat) :=
  b.tickets[ticket]?.map fun t => (t.slot, t.stamp)

/-- An allocated completion. -/
def completion? (b : Switchboard) (ticket : Nat) : Option Completion :=
  b.tickets[ticket]?.map fun t => t.completion

/-- Whether an allocated completion still has its callback. -/
def armed? (b : Switchboard) (ticket : Nat) : Option Bool :=
  (b.completion? ticket).map fun c => c.armed

@[simp] theorem token?_atSlot (f : Bridge → Bridge) :
    (b.atSlot slot f).token? ticket = b.token? ticket := rfl

@[simp] theorem completion?_atSlot (f : Bridge → Bridge) :
    (b.atSlot slot f).completion? ticket = b.completion? ticket := rfl

theorem token?_eq_none_of_le (h : b.tickets.size ≤ ticket) : b.token? ticket = none := by
  rw [token?, Array.getElem?_eq_none h, Option.map_none]

theorem lt_size_of_token? {token : Nat × Nat} (h : b.token? ticket = some token) :
    ticket < b.tickets.size := by
  by_contra hlt
  rw [token?_eq_none_of_le (Nat.not_lt.mp hlt)] at h
  cases h

theorem lt_size_of_completion? {c : Completion} (h : b.completion? ticket = some c) :
    ticket < b.tickets.size := by
  by_contra hlt
  rw [completion?, Array.getElem?_eq_none (Nat.not_lt.mp hlt)] at h
  cases h

theorem token?_isSome_of_armed? {armed : Bool} (h : b.armed? ticket = some armed) :
    ∃ token, b.token? ticket = some token := by
  rcases Option.map_eq_some_iff.mp h with ⟨c, hc, -⟩
  rcases Option.map_eq_some_iff.mp hc with ⟨t, ht, -⟩
  exact ⟨(t.slot, t.stamp), by rw [token?, ht, Option.map_some]⟩

/-! ### Allocation -/

variable {stamp : Nat}

@[simp] theorem bridges_allocate : (b.allocate slot stamp).2.bridges = b.bridges := rfl

@[simp] theorem bridge_allocate : (b.allocate slot stamp).2.bridge other = b.bridge other := rfl

@[simp] theorem size_allocate :
    (b.allocate slot stamp).2.tickets.size = b.tickets.size + 1 := Array.size_push ..

theorem token?_allocate : (b.allocate slot stamp).2.token? ticket =
    if ticket = b.tickets.size then some (slot, stamp) else b.token? ticket := by
  unfold token? allocate
  rw [Array.getElem?_push]
  split <;> rfl

theorem completion?_allocate : (b.allocate slot stamp).2.completion? ticket =
    if ticket = b.tickets.size then some {} else b.completion? ticket := by
  unfold completion? allocate
  rw [Array.getElem?_push]
  split <;> rfl

theorem armed?_allocate_of_ne (h : ticket ≠ b.tickets.size) :
    (b.allocate slot stamp).2.armed? ticket = b.armed? ticket := by
  rw [armed?, completion?_allocate, if_neg h, armed?]

/-! ### Recording, calling back and taking -/

variable {n : Nat} {outcome : Outcome}

/-- The switchboard with another completion at a place that has one. -/
theorem token?_set {t : Ticket} (h : b.tickets[n]? = some t) (c : Completion) :
    ({ b with tickets := b.tickets.set! n { t with completion := c } } : Switchboard).token? ticket
      = b.token? ticket := by
  unfold token?
  simp only [Array.set!_eq_setIfInBounds, Array.getElem?_setIfInBounds]
  by_cases hn : n = ticket
  · subst hn
    have hlt : n < b.tickets.size := (Array.getElem?_eq_some_iff.mp h).1
    rw [if_pos rfl, if_pos hlt, h]
    rfl
  · rw [if_neg hn]

theorem completion?_set {t : Ticket} (h : b.tickets[n]? = some t) (c : Completion) :
    ({ b with tickets := b.tickets.set! n { t with completion := c } } :
      Switchboard).completion? ticket = if ticket = n then some c else b.completion? ticket := by
  unfold completion?
  simp only [Array.set!_eq_setIfInBounds, Array.getElem?_setIfInBounds]
  by_cases hn : n = ticket
  · subst hn
    have hlt : n < b.tickets.size := (Array.getElem?_eq_some_iff.mp h).1
    rw [if_pos rfl, if_pos hlt, if_pos rfl]
    rfl
  · rw [if_neg hn, if_neg fun h => hn h.symm]

@[simp] theorem bridges_record : (b.record n outcome).2.bridges = b.bridges := by
  unfold record
  split <;> rfl

@[simp] theorem bridge_record : (b.record n outcome).2.bridge other = b.bridge other := by
  rw [bridge, bridges_record, bridge]

@[simp] theorem size_record : (b.record n outcome).2.tickets.size = b.tickets.size := by
  unfold record
  split
  · rfl
  · exact Array.size_setIfInBounds ..

@[simp] theorem token?_record : (b.record n outcome).2.token? ticket = b.token? ticket := by
  unfold record
  cases h : b.tickets[n]? with
  | none => rfl
  | some t => exact token?_set h _

theorem completion?_record : (b.record n outcome).2.completion? ticket =
    if ticket = n then (b.completion? n).map fun c => (c.record outcome).2
    else b.completion? ticket := by
  unfold record
  cases h : b.tickets[n]? with
  | none =>
    have hnone : b.completion? n = none := by rw [completion?, h, Option.map_none]
    by_cases hn : ticket = n
    · rw [if_pos hn, hn, hnone, Option.map_none]
    · rw [if_neg hn]
  | some t =>
    have hcompletion : b.completion? n = some t.completion := by
      rw [completion?, h, Option.map_some]
    rw [completion?_set h, hcompletion]
    rfl

theorem record_fst : (b.record n outcome).1 =
    ((b.completion? n).map fun c => (c.record outcome).1).getD false := by
  unfold record completion?
  cases b.tickets[n]? <;> rfl

@[simp] theorem bridges_take : (b.take n).2.bridges = b.bridges := by
  unfold take
  split <;> rfl

@[simp] theorem bridge_take : (b.take n).2.bridge other = b.bridge other := by
  rw [bridge, bridges_take, bridge]

@[simp] theorem size_take : (b.take n).2.tickets.size = b.tickets.size := by
  unfold take
  split
  · rfl
  · exact Array.size_setIfInBounds ..

@[simp] theorem token?_take : (b.take n).2.token? ticket = b.token? ticket := by
  unfold take
  cases h : b.tickets[n]? with
  | none => rfl
  | some t => exact token?_set h _

theorem completion?_take : (b.take n).2.completion? ticket =
    if ticket = n then (b.completion? n).map fun c => c.take.2 else b.completion? ticket := by
  unfold take
  cases h : b.tickets[n]? with
  | none =>
    have hnone : b.completion? n = none := by rw [completion?, h, Option.map_none]
    by_cases hn : ticket = n
    · rw [if_pos hn, hn, hnone, Option.map_none]
    · rw [if_neg hn]
  | some t =>
    have hcompletion : b.completion? n = some t.completion := by
      rw [completion?, h, Option.map_some]
    rw [completion?_set h, hcompletion]
    rfl

theorem take_fst : (b.take n).1 = (b.completion? n).bind fun c => c.outcome := by
  unfold take completion?
  cases b.tickets[n]? <;> rfl

@[simp] theorem armed?_take : (b.take n).2.armed? ticket = b.armed? ticket := by
  unfold armed?
  rw [completion?_take]
  split
  · next heq =>
    subst heq
    rw [Option.map_map]
    rfl
  · rfl

/-- A completion that calls back now had its callback before, and has it no more. -/
theorem armed?_of_record (h : (b.record n outcome).1 = true) :
    b.armed? n = some true ∧ (b.record n outcome).2.armed? n = some false := by
  rw [record_fst] at h
  unfold armed?
  rw [completion?_record, if_pos rfl]
  cases hc : b.completion? n with
  | none =>
    rw [hc] at h
    cases h
  | some c =>
    rw [hc] at h
    simp only [Option.map_some, Option.getD_some, Completion.record] at h
    -- a completion that has fired does not call back again
    by_cases hfired : c.fired = true
    · rw [if_pos hfired] at h
      cases h
    · rw [if_neg hfired] at h
      refine ⟨congrArg some h, ?_⟩
      simp only [Option.map_some, Completion.record, if_neg hfired]

/-- To record an outcome gives no completion its callback back. -/
theorem armed?_record_of_false (h : b.armed? ticket = some false) :
    (b.record n outcome).2.armed? ticket = some false := by
  unfold armed? at h ⊢
  rw [completion?_record]
  split
  · next heq =>
    subst heq
    rcases Option.map_eq_some_iff.mp h with ⟨c, hc, harmed⟩
    rw [hc, Option.map_some, Option.map_some]
    unfold Completion.record
    split
    · exact congrArg some harmed
    · rfl
  · exact h

theorem armed?_of_record_true (h : (b.record n outcome).2.armed? ticket = some true) :
    b.armed? ticket = some true := by
  cases hb : b.armed? ticket with
  | none =>
    unfold armed? at h hb
    rw [completion?_record] at h
    split at h
    · next heq =>
      subst heq
      rw [Option.map_eq_none_iff.mp hb] at h
      cases h
    · rw [hb] at h
      cases h
  | some armed =>
    cases armed with
    | true => rfl
    | false =>
      rw [armed?_record_of_false hb] at h
      cases h

/-- Running a callback fires the token. -/
theorem callBack_eq (h : b.token? n = some (slot, stamp)) :
    b.callBack n = b.atSlot slot fun bridge => bridge.fire stamp := by
  rcases Option.map_eq_some_iff.mp h with ⟨t, ht, htoken⟩
  cases htoken
  simp only [callBack, ht]

@[simp] theorem token?_callBack : (b.callBack n).token? ticket = b.token? ticket := by
  unfold callBack
  split <;> rfl

@[simp] theorem completion?_callBack :
    (b.callBack n).completion? ticket = b.completion? ticket := by
  unfold callBack
  split <;> rfl

@[simp] theorem size_callBack : (b.callBack n).tickets.size = b.tickets.size := by
  unfold callBack
  split <;> rfl

@[simp] theorem length_callBack : (b.callBack n).bridges.length = b.bridges.length := by
  unfold callBack
  split
  · rfl
  · exact length_atSlot ..

/-! ## Stamps -/

/-- Stamps are no larger than the generation, and those of one slot ascend as they were given. -/
structure Stamped (b : Switchboard) : Prop where
  le_generation : ∀ {ticket slot stamp},
    b.token? ticket = some (slot, stamp) → stamp ≤ (b.bridge slot).generation
  ascending : ∀ {earlier later slot stamp stamp'}, b.token? earlier = some (slot, stamp) →
    b.token? later = some (slot, stamp') → earlier < later → stamp < stamp'

/-- Two tokens of a slot never have the same stamp. -/
theorem Stamped.eq_of_token? (h : b.Stamped) {n m : Nat} (hn : b.token? n = some (slot, stamp))
    (hm : b.token? m = some (slot, stamp)) : n = m := by
  rcases Nat.lt_trichotomy n m with hlt | heq | hlt
  · exact absurd (h.ascending hn hm hlt) (Nat.lt_irrefl _)
  · exact heq
  · exact absurd (h.ascending hm hn hlt) (Nat.lt_irrefl _)

/-- Steps that change no token and lower no generation keep the stamps in order. -/
theorem Stamped.of_tokens {b' : Switchboard} (h : b.Stamped)
    (htoken : ∀ ticket, b'.token? ticket = b.token? ticket)
    (hgeneration : ∀ slot, (b.bridge slot).generation ≤ (b'.bridge slot).generation) :
    b'.Stamped where
  le_generation := fun ht => Nat.le_trans (h.le_generation (htoken _ ▸ ht)) (hgeneration _)
  ascending := fun ht hu hlt => h.ascending (htoken _ ▸ ht) (htoken _ ▸ hu) hlt

theorem Stamped.atSlot (h : b.Stamped) {f : Bridge → Bridge}
    (hf : (b.bridge slot).generation ≤ (f (b.bridge slot)).generation) :
    (b.atSlot slot f).Stamped :=
  h.of_tokens (fun _ => rfl) fun _ => generation_le_atSlot hf

theorem Stamped.record (h : b.Stamped) : (b.record n outcome).2.Stamped :=
  h.of_tokens (fun _ => token?_record) fun _ => Nat.le_of_eq (by rw [bridge_record])

theorem Stamped.take (h : b.Stamped) : (b.take n).2.Stamped :=
  h.of_tokens (fun _ => token?_take) fun _ => Nat.le_of_eq (by rw [bridge_take])

theorem generation_le_callBack :
    (b.bridge other).generation ≤ ((b.callBack n).bridge other).generation := by
  unfold Switchboard.callBack
  split
  · exact Nat.le_refl _
  · exact generation_le_atSlot (Nat.le_of_eq (Bridge.generation_fire _ _).symm)

theorem Stamped.callBack (h : b.Stamped) : (b.callBack n).Stamped :=
  h.of_tokens (fun _ => token?_callBack) fun _ => generation_le_callBack

/-- A new token is stamped with a generation that has no token yet. -/
theorem Stamped.allocate (h : b.Stamped) (hle : stamp ≤ (b.bridge slot).generation)
    (hnew : ∀ {ticket stamp'}, b.token? ticket = some (slot, stamp') → stamp' < stamp) :
    (b.allocate slot stamp).2.Stamped where
  le_generation := by
    intro ticket slot' stamp' ht
    rw [token?_allocate] at ht
    split at ht
    · cases ht
      exact hle
    · exact h.le_generation ht
  ascending := by
    intro earlier later slot' stamp' stamp'' ht hu hlt
    rw [token?_allocate] at ht hu
    -- the new token comes last, so it can only be the later one
    split at hu
    · next hlater =>
      rw [if_neg (by omega)] at ht
      cases hu
      exact hnew ht
    · next hlater =>
      have hsmall := lt_size_of_token? hu
      rw [if_neg (by omega)] at ht
      exact h.ascending ht hu hlt

end Switchboard

end DavGateway
