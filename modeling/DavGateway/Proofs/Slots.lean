import DavGateway.Slots
import Mathlib.Data.List.Nodup
import Mathlib.Data.List.Perm.Basic

/-!
# Permits and slots stay in step

A permit and the slot behind it change hands at different moments: a permit is granted when a
slot is given back, and its slot is taken only when the waiter is polled. `SlotPool.InStep` says
how permits, grants, free slots and the leases that are out fit together between two operations.
Every operation keeps it, so it holds in every run of a `SlotTrial`, and from it follows that
nobody who holds a permit finds the stack of free slots empty.
-/

namespace DavGateway

namespace SlotPool

/-- How a pool of `n` slots fits the leases that are out, while `inHand` permits have been taken
whose slots are still on the stack. -/
structure Fits (p : SlotPool) (n : Nat) (leases : List Nat) (inHand : Nat) : Prop where
  slots : (p.free ++ leases).Perm (List.range n)
  permits : p.permits + p.granted.length + inHand = p.free.length
  starved : p.queue ≠ [] → p.permits = 0

/-- A pool between two operations: no permit is in hand. -/
abbrev InStep (p : SlotPool) (n : Nat) (leases : List Nat) : Prop := p.Fits n leases 0

theorem Fits.perm {p : SlotPool} {n : Nat} {leases leases' : List Nat} {inHand : Nat}
    (h : p.Fits n leases inHand) (hperm : leases.Perm leases') : p.Fits n leases' inHand where
  slots := (hperm.symm.append_left p.free).trans h.slots
  permits := h.permits
  starved := h.starved

/-- A slot that is leased is one of the pool. -/
theorem Fits.lt {p : SlotPool} {n : Nat} {leases : List Nat} {inHand index : Nat}
    (h : p.Fits n leases inHand) (hindex : index ∈ leases) : index < n :=
  List.mem_range.mp (h.slots.mem_iff.mp (List.mem_append_right _ hindex))

/-! ## The parts of the operations -/

/-- A permit in hand can be given back. -/
theorem Fits.returnPermit {p : SlotPool} {n : Nat} {leases : List Nat} {inHand : Nat}
    (h : p.Fits n leases (inHand + 1)) : p.returnPermit.Fits n leases inHand := by
  have hcount := h.permits
  unfold SlotPool.returnPermit
  cases hq : p.queue with
  | nil =>
    refine ⟨h.slots, ?_, fun hne => absurd rfl hne⟩
    show p.permits + 1 + p.granted.length + inHand = p.free.length
    omega
  | cons waiter rest =>
    have hzero : p.permits = 0 := h.starved (by simp [hq])
    refine ⟨h.slots, ?_, fun _ => hzero⟩
    show p.permits + (p.granted ++ [waiter]).length + inHand = p.free.length
    rw [List.length_append, List.length_singleton]
    omega

/-- With a permit in hand there is a free slot. -/
theorem Fits.takeSlot {p : SlotPool} {n : Nat} {leases : List Nat} {inHand : Nat}
    (h : p.Fits n leases (inHand + 1)) :
    ∃ index rest, p.free = index :: rest ∧ p.takeSlot = (.slot index, { p with free := rest })
      ∧ ({ p with free := rest } : SlotPool).Fits n (index :: leases) inHand := by
  have hcount := h.permits
  cases hfree : p.free with
  | nil =>
    rw [hfree, List.length_nil] at hcount
    omega
  | cons index rest =>
    refine ⟨index, rest, rfl, by simp only [SlotPool.takeSlot, hfree], ?_, ?_, h.starved⟩
    · have hmove : (rest ++ index :: leases).Perm (index :: rest ++ leases) :=
        List.perm_middle
      exact hmove.trans (hfree ▸ h.slots)
    · show p.permits + p.granted.length + inHand = rest.length
      rw [hfree, List.length_cons] at hcount
      omega

/-- A waiter with a permit can be taken off the list of grants, permit in hand. -/
theorem Fits.ungrant {p : SlotPool} {n : Nat} {leases : List Nat} {waiter : Nat}
    (h : p.InStep n leases) (hw : waiter ∈ p.granted) :
    ({ p with granted := p.granted.erase waiter } : SlotPool).Fits n leases 1 := by
  have hcount := h.permits
  have herase := List.length_erase_of_mem hw
  have hpos := List.length_pos_of_mem hw
  refine ⟨h.slots, ?_, h.starved⟩
  show p.permits + (p.granted.erase waiter).length + 1 = p.free.length
  omega

/-! ## What an operation can do -/

variable {p : SlotPool} {n : Nat} {leases : List Nat}

/-- A new pool has no leases out. -/
theorem create_inStep (h : create n = .ok p) :
    p.queue = [] ∧ p.granted = [] ∧ p.waiters = 0 ∧ p.InStep n [] := by
  unfold create at h
  split at h
  · cases h
  · cases h
    refine ⟨rfl, rfl, rfl, ?_, ?_, fun hne => absurd rfl hne⟩
    · simp
    · simp

/-- An attempt is blocked because there is no permit, or it takes a permit and a slot. -/
theorem InStep.acquire (h : p.InStep n leases) :
    (p.permits = 0 ∧ p.acquire = (.blocked, p)) ∨
    ∃ index rest, p.free = index :: rest
      ∧ p.acquire = (.slot index, { p with permits := p.permits - 1, free := rest })
      ∧ ({ p with permits := p.permits - 1, free := rest } : SlotPool).InStep n
        (index :: leases) := by
  unfold SlotPool.acquire
  by_cases hzero : p.permits = 0
  · exact .inl ⟨hzero, if_pos hzero⟩
  · right
    have htaken : ({ p with permits := p.permits - 1 } : SlotPool).Fits n leases 1 := by
      have hcount := h.permits
      refine ⟨h.slots, ?_, fun hne => absurd (h.starved hne) hzero⟩
      show p.permits - 1 + p.granted.length + 1 = p.free.length
      omega
    rw [if_neg hzero]
    exact htaken.takeSlot

/-- Who cannot have a slot at once joins the queue at its end. -/
theorem InStep.enqueue (h : p.InStep n leases) :
    (p.enqueue = (.blocked, some p.waiters,
        { p with queue := p.queue ++ [p.waiters], waiters := p.waiters + 1 })
      ∧ ({ p with queue := p.queue ++ [p.waiters], waiters := p.waiters + 1 } : SlotPool).InStep
        n leases) ∨
    ∃ index rest, p.free = index :: rest
      ∧ p.enqueue = (.slot index, none, { p with permits := p.permits - 1, free := rest })
      ∧ ({ p with permits := p.permits - 1, free := rest } : SlotPool).InStep n
        (index :: leases) := by
  unfold SlotPool.enqueue
  rcases h.acquire with ⟨hzero, hacq⟩ | ⟨index, rest, hfree, hacq, hfits⟩
  · rw [hacq]
    exact .inl ⟨rfl, h.slots, h.permits, fun _ => hzero⟩
  · rw [hacq]
    exact .inr ⟨index, rest, hfree, rfl, hfits⟩

/-- A waiter that is polled gets a slot if it was granted a permit, and nothing changes else. -/
theorem InStep.poll (h : p.InStep n leases) (waiter : Nat) :
    (waiter ∉ p.granted ∧ (waiter ∈ p.queue ∧ p.poll waiter = (some .blocked, p) ∨
      waiter ∉ p.queue ∧ p.poll waiter = (none, p))) ∨
    ∃ index rest, waiter ∈ p.granted ∧ p.free = index :: rest
      ∧ p.poll waiter =
        (some (.slot index), { p with granted := p.granted.erase waiter, free := rest })
      ∧ ({ p with granted := p.granted.erase waiter, free := rest } : SlotPool).InStep
        n (index :: leases) := by
  unfold SlotPool.poll
  by_cases hw : waiter ∈ p.granted
  · right
    rcases (h.ungrant hw).takeSlot with ⟨index, rest, hfree, htake, hfits⟩
    rw [if_pos hw, htake]
    exact ⟨index, rest, hw, hfree, rfl, hfits⟩
  · left
    rw [if_neg hw]
    by_cases hq : waiter ∈ p.queue
    · exact ⟨hw, .inl ⟨hq, if_pos hq⟩⟩
    · exact ⟨hw, .inr ⟨hq, if_neg hq⟩⟩

/-- A waiter that leaves passes its permit on, if it was granted one. -/
theorem InStep.cancel (h : p.InStep n leases) (waiter : Nat) :
    (p.cancel waiter).2.InStep n leases := by
  unfold SlotPool.cancel
  by_cases hw : waiter ∈ p.granted
  · rw [if_pos hw]
    exact (h.ungrant hw).returnPermit
  · rw [if_neg hw]
    by_cases hq : waiter ∈ p.queue
    · rw [if_pos hq]
      exact ⟨h.slots, h.permits, fun _ => h.starved (List.ne_nil_of_mem hq)⟩
    · rw [if_neg hq]
      exact h

/-- A leased slot can be given back. -/
theorem InStep.release {index : Nat} (h : p.InStep n (index :: leases)) :
    (p.release index).InStep n leases := by
  have hgiven : ({ p with free := index :: p.free } : SlotPool).Fits n leases 1 := by
    have hcount := h.permits
    refine ⟨?_, ?_, h.starved⟩
    · have hmove : (p.free ++ index :: leases).Perm (index :: p.free ++ leases) :=
        List.perm_middle
      exact hmove.symm.trans h.slots
    · show p.permits + p.granted.length + 1 = (index :: p.free).length
      rw [List.length_cons]
      omega
  exact hgiven.returnPermit

/-! ## Who is waiting -/

/-- The waiters that are there: first those with a permit, then those without. -/
def waiting (p : SlotPool) : List Nat := p.granted ++ p.queue

theorem waiting_returnPermit : p.returnPermit.waiting = p.waiting := by
  unfold returnPermit
  cases hq : p.queue with
  | nil => simp only [waiting, hq]
  | cons waiter rest => simp only [waiting, hq, List.append_assoc, List.singleton_append]

/-- Who is taken off the list of grants is no longer waiting. -/
theorem waiting_ungrant {waiter : Nat} {free : List Nat} (hw : waiter ∈ p.granted) :
    ({ p with granted := p.granted.erase waiter, free := free } : SlotPool).waiting =
      p.waiting.erase waiter :=
  (List.erase_append_left p.queue hw).symm

/-- A waiter that leaves is told whether it was there, and no other waiter leaves. -/
theorem cancel_waiting (p : SlotPool) (waiter : Nat) :
    (p.cancel waiter).1 = decide (waiter ∈ p.waiting)
      ∧ (p.cancel waiter).2.waiting = p.waiting.erase waiter := by
  unfold cancel
  by_cases hw : waiter ∈ p.granted
  · have hthere : waiter ∈ p.waiting := List.mem_append_left _ hw
    rw [if_pos hw]
    refine ⟨(decide_eq_true hthere).symm, ?_⟩
    rw [waiting_returnPermit]
    exact waiting_ungrant hw
  · rw [if_neg hw]
    by_cases hq : waiter ∈ p.queue
    · have hthere : waiter ∈ p.waiting := List.mem_append_right _ hq
      rw [if_pos hq]
      exact ⟨(decide_eq_true hthere).symm, (List.erase_append_right p.queue hw).symm⟩
    · have habsent : waiter ∉ p.waiting := fun h => (List.mem_append.mp h).elim hw hq
      rw [if_neg hq]
      exact ⟨(decide_eq_false habsent).symm, (List.erase_of_not_mem habsent).symm⟩

/-- A slot that was taken without waiting is given back: the pool is as before. -/
theorem release_acquired {slot : Nat} {rest : List Nat}
    (hfree : p.free = slot :: rest) (hpermits : p.permits ≠ 0) (hqueue : p.queue = []) :
    ∃ p', p.acquire = (.slot slot, p') ∧ p'.release slot = p := by
  rcases p with ⟨concurrency, free, permits, queue, granted, waiters⟩
  cases hfree
  cases hqueue
  refine ⟨⟨concurrency, rest, permits - 1, [], granted, waiters⟩, ?_, ?_⟩
  · unfold acquire
    rw [if_neg hpermits]
    rfl
  · have hback : permits - 1 + 1 = permits := Nat.succ_pred hpermits
    unfold release returnPermit
    simp only [hback]

end SlotPool

/-! ## Runs of a pool -/

/-- What happens to a pool: somebody tries to take a slot without waiting, or joins the waiters; a
waiter is polled, or leaves; a lease, named by its place among those that are out, is given back. -/
inductive SlotEvent where
  | attempt
  | join
  | poll (waiter : Nat)
  | cancel (waiter : Nat)
  | release (place : Nat)
deriving DecidableEq, Repr

/-- A pool with the leases that are out, and with what has happened so far: who joined the waiters,
who was served when it was polled and who left, who was granted a permit, each in this order, and
what the attempts came to. -/
structure SlotTrial where
  pool : SlotPool
  leases : List Nat := []
  joined : List Nat := []
  served : List Nat := []
  left : List Nat := []
  grants : List Nat := []
  answers : List Acquired := []
deriving DecidableEq, Repr

namespace SlotTrial

/-- Those who have joined and are still to be served, in the order in which they joined. -/
def waiting (t : SlotTrial) : List Nat :=
  t.joined.filter fun waiter => waiter ∉ t.served ++ t.left

/-- The leases after an attempt. -/
def leasing (leases : List Nat) : Acquired → List Nat
  | .slot index => index :: leases
  | .failed _ | .blocked => leases

/-- The trial goes on with another pool. The permits that waiters were granted by the change are
noted down. -/
def goOn (t : SlotTrial) (pool : SlotPool) : SlotTrial :=
  { t with pool := pool, grants := t.grants ++ pool.granted.filter (· ∉ t.pool.granted) }

/-- The trial goes on after an attempt. -/
def settle (t : SlotTrial) (answer : Acquired) (pool : SlotPool) : SlotTrial :=
  { t.goOn pool with leases := leasing t.leases answer, answers := t.answers ++ [answer] }

/-- The trial goes on after a waiter was served. -/
def serve (t : SlotTrial) (waiter : Nat) (answer : Acquired) (pool : SlotPool) : SlotTrial :=
  { t.settle answer pool with served := t.served ++ [waiter] }

/-- The trial goes on after somebody left, who may have been no waiter. -/
def leave (t : SlotTrial) (waiter : Nat) (pool : SlotPool) : SlotTrial :=
  { t.goOn pool with left := if waiter ∈ t.waiting then t.left ++ [waiter] else t.left }

/-- Lets one event happen. -/
def step (t : SlotTrial) : SlotEvent → SlotTrial
  | .attempt =>
    let (answer, pool) := t.pool.acquire
    t.settle answer pool
  | .join =>
    let (answer, waiter, pool) := t.pool.enqueue
    { t.settle answer pool with joined := t.joined ++ waiter.toList }
  | .poll waiter =>
    match t.pool.poll waiter with
    | (some .blocked, pool) => t.settle .blocked pool
    | (some answer, pool) => t.serve waiter answer pool
    | (none, pool) => t.goOn pool
  | .cancel waiter => t.leave waiter (t.pool.cancel waiter).2
  | .release place =>
    match t.leases[place]? with
    | some index => { t.goOn (t.pool.release index) with leases := t.leases.eraseIdx place }
    | none => t

/-- Lets events happen one after the other. -/
def run (t : SlotTrial) (events : List SlotEvent) : SlotTrial := events.foldl step t

/-- Waiters are numbered as they join, and permits are granted in the order of the queue. -/
structure InTurn (t : SlotTrial) : Prop where
  numbered : t.joined = List.range t.pool.waiters
  turns : (t.grants ++ t.pool.queue).Sublist t.joined
  noted : ∀ waiter ∈ t.pool.granted, waiter ∈ t.grants

/-- The waiters in the pool are those who are still to be served, and who was served had been
granted a permit. -/
structure Present (t : SlotTrial) : Prop where
  waiting : t.pool.waiting = t.waiting
  gone : ∀ waiter ∈ t.served ++ t.left, waiter ∈ t.joined
  granted : ∀ waiter ∈ t.served, waiter ∈ t.grants

/-- What holds of a trial after every event. -/
structure Sound (t : SlotTrial) (n : Nat) : Prop where
  inStep : t.pool.InStep n t.leases
  inTurn : t.InTurn
  present : t.Present
  answers : ∀ answer ∈ t.answers, ∀ failure, answer ≠ .failed failure

variable {t : SlotTrial} {n : Nat}

/-! ## Turns -/

theorem InTurn.nodup (h : t.InTurn) : (t.grants ++ t.pool.queue).Nodup :=
  h.turns.nodup (h.numbered ▸ List.nodup_range)

/-- Those who were granted a permit before are not noted down again. -/
theorem filter_granted {old new : List Nat} (h : new ⊆ old) : new.filter (· ∉ old) = [] := by
  rw [List.filter_eq_nil_iff]
  intro waiter hw
  simpa using h hw

/-- Nobody is granted a permit when the grants do not grow. -/
theorem InTurn.keep (h : t.InTurn) {pool : SlotPool} (hwaiters : pool.waiters = t.pool.waiters)
    (hqueue : pool.queue.Sublist t.pool.queue) (hgranted : pool.granted ⊆ t.pool.granted) :
    (t.goOn pool).InTurn := by
  have hnone := filter_granted hgranted
  refine ⟨hwaiters ▸ h.numbered, ?_, ?_⟩
  · show ((t.grants ++ pool.granted.filter (· ∉ t.pool.granted)) ++ pool.queue).Sublist t.joined
    rw [hnone, List.append_nil]
    exact (hqueue.append_left t.grants).trans h.turns
  · intro waiter hw
    exact List.mem_append_left _ (h.noted waiter (hgranted hw))

/-- A permit that is given back goes to the head of the queue. -/
theorem InTurn.returnPermit (h : t.InTurn) {pool : SlotPool}
    (hwaiters : pool.waiters = t.pool.waiters) (hqueue : pool.queue = t.pool.queue)
    (hgranted : pool.granted ⊆ t.pool.granted) : (t.goOn pool.returnPermit).InTurn := by
  unfold SlotPool.returnPermit
  cases hq : pool.queue with
  | nil => exact h.keep hwaiters (List.nil_sublist _) hgranted
  | cons waiter rest =>
    -- the head of the queue has not been granted a permit before
    have hfresh : waiter ∉ t.pool.granted := by
      intro hw
      have hdisjoint := (List.nodup_append.mp h.nodup).2.2 waiter (h.noted waiter hw) waiter
      exact hdisjoint (hqueue ▸ hq ▸ List.mem_cons_self) rfl
    have hnew : (pool.granted ++ [waiter]).filter (· ∉ t.pool.granted) = [waiter] := by
      rw [List.filter_append, filter_granted hgranted, List.nil_append]
      simpa using hfresh
    refine ⟨hwaiters ▸ h.numbered, ?_, ?_⟩
    · show (t.grants ++ (pool.granted ++ [waiter]).filter (· ∉ t.pool.granted) ++ rest).Sublist
        t.joined
      rw [hnew, List.append_assoc, List.singleton_append, ← hq, hqueue]
      exact h.turns
    · intro other hw
      show other ∈ t.grants ++ (pool.granted ++ [waiter]).filter (· ∉ t.pool.granted)
      rw [hnew]
      rcases List.mem_append.mp hw with hw | hw
      · exact List.mem_append_left _ (h.noted other (hgranted hw))
      · exact List.mem_append_right _ hw

/-- Permits are granted in turn also when a waiter leaves that had been granted one. -/
theorem InTurn.cancel (h : t.InTurn) (waiter : Nat) :
    (t.goOn (t.pool.cancel waiter).2).InTurn := by
  unfold SlotPool.cancel
  by_cases hw : waiter ∈ t.pool.granted
  · rw [if_pos hw]
    exact h.returnPermit rfl rfl List.erase_subset
  · rw [if_neg hw]
    by_cases hq : waiter ∈ t.pool.queue
    · rw [if_pos hq]
      exact h.keep rfl List.erase_sublist (List.Subset.refl _)
    · rw [if_neg hq]
      exact h.keep rfl (List.Sublist.refl _) (List.Subset.refl _)

/-! ## Who is still to be served -/

/-- Whoever is gone is no longer among those who joined. -/
theorem filter_gone {joined gone gone' : List Nat} {waiter : Nat} (hnodup : joined.Nodup)
    (hgone : ∀ other, other ∈ gone' ↔ other ∈ gone ∨ other = waiter) :
    joined.filter (fun other => other ∉ gone') =
      (joined.filter fun other => other ∉ gone).erase waiter := by
  rw [(hnodup.filter _).erase_eq_filter, List.filter_filter]
  refine List.filter_congr fun other _ => ?_
  rw [Bool.eq_iff_iff]
  simp [hgone, and_comm]

theorem Present.keep (h : t.Present) {pool : SlotPool} (hpool : pool.waiting = t.pool.waiting) :
    (t.goOn pool).Present where
  waiting := hpool.trans h.waiting
  gone := h.gone
  granted := fun waiter hw => List.mem_append_left _ (h.granted waiter hw)

/-- A waiter that had been granted a permit is served. -/
theorem Present.serve (h : t.Present) (hturn : t.InTurn) {waiter : Nat} (answer : Acquired)
    (hw : waiter ∈ t.pool.granted) {pool : SlotPool}
    (hpool : pool.waiting = t.pool.waiting.erase waiter) :
    (t.serve waiter answer pool).Present := by
  have hnodup : t.joined.Nodup := hturn.numbered ▸ List.nodup_range
  have hjoined : waiter ∈ t.joined :=
    hturn.turns.subset (List.mem_append_left _ (hturn.noted waiter hw))
  refine ⟨?_, ?_, ?_⟩
  · show pool.waiting = t.joined.filter fun other => other ∉ (t.served ++ [waiter]) ++ t.left
    rw [hpool, h.waiting]
    refine (filter_gone hnodup fun other => ?_).symm
    simp only [List.mem_append, List.mem_singleton]
    exact or_right_comm
  · intro other ho
    rcases List.mem_append.mp ho with ho | ho
    · rcases List.mem_append.mp ho with ho | ho
      · exact h.gone other (List.mem_append_left _ ho)
      · exact List.mem_singleton.mp ho ▸ hjoined
    · exact h.gone other (List.mem_append_right _ ho)
  · intro other ho
    rcases List.mem_append.mp ho with ho | ho
    · exact List.mem_append_left _ (h.granted other ho)
    · exact List.mem_append_left _ (List.mem_singleton.mp ho ▸ hturn.noted waiter hw)

theorem Present.leave (h : t.Present) (hturn : t.InTurn) (waiter : Nat) :
    (t.leave waiter (t.pool.cancel waiter).2).Present := by
  have hnodup : t.joined.Nodup := hturn.numbered ▸ List.nodup_range
  have hpool : (t.pool.cancel waiter).2.waiting = t.waiting.erase waiter := by
    rw [(t.pool.cancel_waiting waiter).2, h.waiting]
  unfold SlotTrial.leave
  by_cases hw : waiter ∈ t.waiting
  · rw [if_pos hw]
    refine ⟨?_, ?_, fun other ho => List.mem_append_left _ (h.granted other ho)⟩
    · show _ = t.joined.filter fun other => other ∉ t.served ++ (t.left ++ [waiter])
      refine hpool.trans (filter_gone hnodup fun other => ?_).symm
      simp only [List.mem_append, List.mem_singleton]
      exact or_assoc.symm
    · intro other ho
      rw [← List.append_assoc] at ho
      rcases List.mem_append.mp ho with ho | ho
      · exact h.gone other ho
      · exact List.mem_singleton.mp ho ▸ (List.mem_filter.mp hw).1
  · rw [if_neg hw]
    refine ⟨?_, h.gone, fun other ho => List.mem_append_left _ (h.granted other ho)⟩
    exact hpool.trans (List.erase_of_not_mem hw)

/-! ## Steps and runs -/

/-- A new pool is sound. -/
theorem sound_create {pool : SlotPool} (h : SlotPool.create n = .ok pool) :
    Sound { pool := pool } n := by
  rcases SlotPool.create_inStep h with ⟨hqueue, hgranted, hwaiters, hstep⟩
  refine ⟨hstep, ⟨?_, ?_, ?_⟩, ⟨?_, nofun, nofun⟩, nofun⟩
  · simp [hwaiters]
  · simp [hqueue]
  · simp [hgranted]
  · simp [SlotPool.waiting, waiting, hqueue, hgranted]

/-- One more answer that is not a failure. -/
theorem Sound.answer (h : t.Sound n) {last : Acquired} (hlast : ∀ failure, last ≠ .failed failure) :
    ∀ answer ∈ t.answers ++ [last], ∀ failure, answer ≠ .failed failure := by
  intro answer ha
  rcases List.mem_append.mp ha with ha | ha
  · exact h.answers answer ha
  · rw [List.mem_singleton.mp ha]
    exact hlast

/-- The leases that are out and the answers are nothing to the waiters. -/
theorem sound_goOn {pool : SlotPool} {leases : List Nat} {answers : List Acquired}
    (hpool : pool.InStep n leases) (hturn : (t.goOn pool).InTurn) (hpresent : (t.goOn pool).Present)
    (hanswers : ∀ answer ∈ answers, ∀ failure, answer ≠ .failed failure) :
    Sound { t.goOn pool with leases := leases, answers := answers } n where
  inStep := hpool
  inTurn := ⟨hturn.numbered, hturn.turns, hturn.noted⟩
  present := ⟨hpresent.waiting, hpresent.gone, hpresent.granted⟩
  answers := hanswers

/-- An attempt takes a slot with a free permit or is blocked, and the waiters stay as they were. -/
theorem Sound.settled (h : t.Sound n) {answer : Acquired} {pool : SlotPool}
    (hanswer : ∀ failure, answer ≠ .failed failure)
    (hpool : pool.InStep n (leasing t.leases answer)) (hwaiters : pool.waiters = t.pool.waiters)
    (hqueue : pool.queue = t.pool.queue) (hgranted : pool.granted = t.pool.granted) :
    (t.settle answer pool).Sound n := by
  have hturn := h.inTurn.keep hwaiters (hqueue ▸ List.Sublist.refl _)
    (hgranted ▸ List.Subset.refl _)
  have hwaiting : pool.waiting = t.pool.waiting := by
    rw [SlotPool.waiting, hgranted, hqueue]
    rfl
  exact sound_goOn hpool hturn (h.present.keep hwaiting) (h.answer hanswer)

/-- Taking a slot with the permit that was granted. -/
theorem Sound.serve_slot (h : t.Sound n) {waiter index : Nat} {rest : List Nat}
    (hw : waiter ∈ t.pool.granted)
    (hpool : ({ t.pool with granted := t.pool.granted.erase waiter, free := rest } :
      SlotPool).InStep n (index :: t.leases)) :
    (t.serve waiter (.slot index)
      { t.pool with granted := t.pool.granted.erase waiter, free := rest }).Sound n := by
  let pool : SlotPool := { t.pool with granted := t.pool.granted.erase waiter, free := rest }
  have hturn : (t.goOn pool).InTurn := h.inTurn.keep rfl (List.Sublist.refl _) List.erase_subset
  exact ⟨hpool, ⟨hturn.numbered, hturn.turns, hturn.noted⟩,
    h.present.serve h.inTurn _ hw (SlotPool.waiting_ungrant hw), h.answer nofun⟩

theorem Sound.join (h : t.Sound n) : (t.step .join).Sound n := by
  rcases h.inStep.enqueue with ⟨heq, hpool⟩ | ⟨index, rest, -, heq, hpool⟩
  · have hturn := h.inTurn
    have hnone := filter_granted (List.Subset.refl t.pool.granted)
    -- nobody with the number of the new waiter has been there, so it is not gone either
    have hnew : t.pool.waiters ∉ t.served ++ t.left := by
      intro hgone
      have hjoined := h.present.gone _ hgone
      rw [hturn.numbered] at hjoined
      exact absurd (List.mem_range.mp hjoined) (Nat.lt_irrefl _)
    have hstays : [t.pool.waiters].filter (fun waiter => waiter ∉ t.served ++ t.left) =
        [t.pool.waiters] := List.filter_cons_of_pos (by simpa using hnew)
    simp only [step, heq, settle, SlotTrial.goOn, hnone, List.append_nil, leasing,
      Option.toList_some]
    -- the new waiter stands behind all others, in the queue and among those who joined
    refine ⟨hpool, ⟨?_, ?_, hturn.noted⟩, ⟨?_, ?_, h.present.granted⟩, h.answer nofun⟩
    · rw [List.range_succ, hturn.numbered]
    · show (t.grants ++ (t.pool.queue ++ [t.pool.waiters])).Sublist (t.joined ++ [t.pool.waiters])
      rw [← List.append_assoc]
      exact hturn.turns.append_right _
    · show t.pool.granted ++ (t.pool.queue ++ [t.pool.waiters]) =
        (t.joined ++ [t.pool.waiters]).filter fun waiter => waiter ∉ t.served ++ t.left
      rw [List.filter_append, hstays, ← List.append_assoc]
      exact congrArg (· ++ [t.pool.waiters]) h.present.waiting
    · intro waiter hw
      exact List.mem_append_left _ (h.present.gone waiter hw)
  · have htaken : (t.settle (.slot index)
        { t.pool with permits := t.pool.permits - 1, free := rest }).Sound n :=
      h.settled nofun hpool rfl rfl rfl
    simp only [step, heq, Option.toList_none, List.append_nil]
    exact htaken

/-- One event keeps a trial sound. -/
theorem Sound.step (h : t.Sound n) (event : SlotEvent) : (t.step event).Sound n := by
  cases event with
  | attempt =>
    rcases h.inStep.acquire with ⟨-, heq⟩ | ⟨index, rest, -, heq, hpool⟩
    · simp only [SlotTrial.step, heq]
      exact h.settled nofun h.inStep rfl rfl rfl
    · simp only [SlotTrial.step, heq]
      exact h.settled nofun hpool rfl rfl rfl
  | join => exact h.join
  | poll waiter =>
    rcases h.inStep.poll waiter with ⟨-, ⟨-, heq⟩ | ⟨-, heq⟩⟩ | ⟨index, rest, hw, -, heq, hpool⟩
    · simp only [SlotTrial.step, heq]
      exact h.settled nofun h.inStep rfl rfl rfl
    · have hturn := h.inTurn.keep rfl (List.Sublist.refl _) (List.Subset.refl _)
      simp only [SlotTrial.step, heq]
      exact sound_goOn h.inStep hturn (h.present.keep rfl) h.answers
    · simp only [SlotTrial.step, heq]
      exact h.serve_slot hw hpool
  | cancel waiter =>
    have hturn := h.inTurn.cancel waiter
    exact ⟨h.inStep.cancel waiter, ⟨hturn.numbered, hturn.turns, hturn.noted⟩,
      h.present.leave h.inTurn waiter, h.answers⟩
  | release place =>
    simp only [SlotTrial.step]
    cases hplace : t.leases[place]? with
    | none => exact h
    | some index =>
      rcases List.getElem?_eq_some_iff.mp hplace with ⟨hlt, rfl⟩
      have hgiven := h.inStep.perm (List.getElem_cons_eraseIdx_perm hlt).symm
      have hturn : (t.goOn (t.pool.release t.leases[place])).InTurn :=
        h.inTurn.returnPermit rfl rfl (List.Subset.refl _)
      have hpresent : (t.goOn (t.pool.release t.leases[place])).Present :=
        h.present.keep SlotPool.waiting_returnPermit
      exact sound_goOn (SlotPool.InStep.release hgiven) hturn hpresent h.answers

/-- Every run keeps a trial sound. -/
theorem Sound.run (h : t.Sound n) (events : List SlotEvent) : (t.run events).Sound n := by
  induction events generalizing t with
  | nil => exact h
  | cons event events ih => exact ih (h.step event)

/-! ## What holds in every run -/

/-- The leases, the stack of free slots, the permits and the waiters of a pool of `n` slots, and
what the pool answers next. -/
structure Orderly (t : SlotTrial) (n : Nat) : Prop where
  leases_nodup : t.leases.Nodup
  leases_lt : ∀ index ∈ t.leases, index < n
  free_nodup : t.pool.free.Nodup
  free_unleased : ∀ index ∈ t.pool.free, index ∉ t.leases
  whole : ∀ index, index < n ↔ index ∈ t.pool.free ∨ index ∈ t.leases
  never_failed : ∀ answer ∈ t.answers, ∀ failure, answer ≠ .failed failure
  /-- The waiters with a permit, and behind them those without, are those who have joined, were not
  served and did not leave. -/
  waiting : t.pool.granted ++ t.pool.queue = t.waiting
  granted_nodup : t.pool.granted.Nodup
  available : t.pool.available + t.leases.length + t.pool.granted.length = n
  starved : t.pool.queue ≠ [] → t.pool.available = 0
  in_turn : (t.grants ++ t.pool.queue).Sublist t.joined ∧ t.joined.Nodup
  noted : ∀ waiter, waiter ∈ t.pool.granted ∨ waiter ∈ t.served → waiter ∈ t.grants
  /-- Who comes while a permit is free gets a slot at once. -/
  comes : 0 < t.pool.available → ∃ index ∈ t.pool.free,
    t.pool.acquire.1 = .slot index ∧ t.pool.enqueue.1 = .slot index ∧ t.pool.enqueue.2.1 = none
  /-- Who comes while no permit is free is turned away, or joins the waiters. -/
  blocked : t.pool.available = 0 → t.pool.acquire.1 = .blocked ∧ t.pool.enqueue.1 = .blocked
    ∧ ∃ waiter, t.pool.enqueue.2.1 = some waiter ∧ waiter ∉ t.joined
  /-- A waiter with a permit gets a slot when it is polled, and no other. -/
  polled : ∀ waiter,
    (waiter ∈ t.pool.granted → ∃ index ∈ t.pool.free,
      (t.pool.poll waiter).1 = some (.slot index))
    ∧ (waiter ∈ t.pool.queue → (t.pool.poll waiter).1 = some .blocked)
    ∧ (waiter ∉ t.waiting → (t.pool.poll waiter).1 = none)
  /-- Whoever is still to be served can leave. -/
  leaves : ∀ waiter, (t.pool.cancel waiter).1 = decide (waiter ∈ t.waiting)

theorem Sound.nodup_waiting (h : t.Sound n) : t.pool.waiting.Nodup := by
  have hjoined : t.joined.Nodup := h.inTurn.numbered ▸ List.nodup_range
  rw [h.present.waiting]
  exact hjoined.filter _

theorem Sound.comes (h : t.Sound n) (hfree : 0 < t.pool.permits) : ∃ index ∈ t.pool.free,
    t.pool.acquire.1 = .slot index ∧ t.pool.enqueue.1 = .slot index
      ∧ t.pool.enqueue.2.1 = none := by
  rcases h.inStep.acquire with ⟨hzero, -⟩ | ⟨index, rest, hslots, hacquire, -⟩
  · exact absurd hzero (Nat.ne_of_gt hfree)
  · refine ⟨index, hslots ▸ List.mem_cons_self, ?_⟩
    simp only [SlotPool.enqueue, hacquire]
    exact ⟨trivial, trivial, trivial⟩

theorem Sound.blocked (h : t.Sound n) (hzero : t.pool.permits = 0) :
    t.pool.acquire.1 = .blocked ∧ t.pool.enqueue.1 = .blocked
      ∧ ∃ waiter, t.pool.enqueue.2.1 = some waiter ∧ waiter ∉ t.joined := by
  have hacquire : t.pool.acquire = (.blocked, t.pool) := if_pos hzero
  have hnew : t.pool.waiters ∉ t.joined := by
    rw [h.inTurn.numbered]
    exact List.not_mem_range_self
  simp only [SlotPool.enqueue, hacquire]
  exact ⟨trivial, trivial, _, rfl, hnew⟩

theorem Sound.polled (h : t.Sound n) (waiter : Nat) :
    (waiter ∈ t.pool.granted → ∃ index ∈ t.pool.free,
      (t.pool.poll waiter).1 = some (.slot index))
    ∧ (waiter ∈ t.pool.queue → (t.pool.poll waiter).1 = some .blocked)
    ∧ (waiter ∉ t.waiting → (t.pool.poll waiter).1 = none) := by
  rw [← h.present.waiting, SlotPool.waiting, List.mem_append]
  rcases h.inStep.poll waiter with ⟨hw, ⟨hq, heq⟩ | ⟨hq, heq⟩⟩ | ⟨index, rest, hw, hslots, heq, -⟩
  · rw [heq]
    exact ⟨fun h => absurd h hw, fun _ => rfl, fun h => absurd (.inr hq) h⟩
  · rw [heq]
    exact ⟨fun h => absurd h hw, fun h => absurd h hq, fun _ => rfl⟩
  · have hapart : waiter ∉ t.pool.queue := by
      intro hq
      exact (List.nodup_append.mp h.nodup_waiting).2.2 waiter hw waiter hq rfl
    rw [heq]
    refine ⟨fun _ => ⟨index, hslots ▸ List.mem_cons_self, rfl⟩, fun h => absurd h hapart, ?_⟩
    exact fun h => absurd (.inl hw) h

theorem Sound.orderly (h : t.Sound n) : t.Orderly n := by
  have hslots := h.inStep.slots
  have hnodup : (t.pool.free ++ t.leases).Nodup := hslots.nodup_iff.mpr List.nodup_range
  rcases List.nodup_append.mp hnodup with ⟨hfree, hleases, hdisjoint⟩
  have hwhole : ∀ index, index < n ↔ index ∈ t.pool.free ∨ index ∈ t.leases := by
    intro index
    rw [← List.mem_range, ← hslots.mem_iff, List.mem_append]
  constructor
  case leases_nodup => exact hleases
  case leases_lt => exact fun index hi => (hwhole index).mpr (.inr hi)
  case free_nodup => exact hfree
  case free_unleased => exact fun index hi hl => hdisjoint index hi index hl rfl
  case whole => exact hwhole
  case never_failed => exact h.answers
  case waiting => exact h.present.waiting
  case granted_nodup => exact (List.nodup_append.mp h.nodup_waiting).1
  case available =>
    have hlength := hslots.length_eq
    have hpermits := h.inStep.permits
    rw [List.length_append, List.length_range] at hlength
    show t.pool.permits + t.leases.length + t.pool.granted.length = n
    omega
  case starved => exact h.inStep.starved
  case in_turn => exact ⟨h.inTurn.turns, h.inTurn.numbered ▸ List.nodup_range⟩
  case noted => exact fun waiter hw => hw.elim (h.inTurn.noted waiter) (h.present.granted waiter)
  case comes => exact h.comes
  case blocked => exact h.blocked
  case polled => exact h.polled
  case leaves =>
    intro waiter
    rw [(t.pool.cancel_waiting waiter).1, h.present.waiting]

end SlotTrial

/-- A pool of at least one slot can be made, and it is orderly after any events: no slot is leased
twice or lost, no holder of a permit goes without a slot, every permit is free, in a lease or with a
waiter that has not been served since and has not left, nobody waits while a permit is free, and
permits are granted in the order in which the waiters joined. -/
theorem slots_orderly {n : Nat} (hn : 1 ≤ n) :
    ∃ pool, SlotPool.create n = .ok pool ∧
      ∀ events, (({ pool := pool } : SlotTrial).run events).Orderly n := by
  have hne : n ≠ 0 := Nat.ne_of_gt hn
  refine ⟨_, if_neg hne, fun events => ?_⟩
  exact ((SlotTrial.sound_create (if_neg hne)).run events).orderly

/-- A waiter leaves with the permit that it was granted: the permit goes on to the next waiter,
who is served with the slot that was given back. -/
theorem slots_orderly_passing_on :
    1 ≤ 2 ∧ ∃ pool, SlotPool.create 2 = .ok pool ∧
      let granted := ({ pool := pool } : SlotTrial).run
        [.attempt, .attempt, .join, .join, .release 1]
      let passed := granted.run [.cancel 0]
      let taken := passed.run [.poll 1]
      granted.pool.granted = [0] ∧ passed.pool.granted = [1] ∧ taken.Orderly 2
        ∧ taken.served = [1] ∧ taken.left = [0] ∧ taken.leases = [0, 1]
        ∧ taken.answers = [.slot 0, .slot 1, .blocked, .blocked, .slot 0] := by
  rcases slots_orderly (n := 2) (by decide) with ⟨pool, hpool, hrun⟩
  obtain rfl : ({ concurrency := 2, free := [0, 1], permits := 2 } : SlotPool) = pool :=
    Except.ok.inj hpool
  have horderly := hrun [.attempt, .attempt, .join, .join, .release 1, .cancel 0, .poll 1]
  exact ⟨by decide, _, hpool, rfl, rfl, horderly, rfl, rfl, rfl, rfl⟩

end DavGateway
