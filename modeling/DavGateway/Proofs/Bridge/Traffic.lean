import DavGateway.Bridge.Trial
import DavGateway.Proofs.Bridge.Calls
import DavGateway.Proofs.Bridge.Laws

/-!
# The traffic on one bridge

A `BridgeTrial` lets a whole wait happen at once. Here waiters go on step by step, and a completion
records its outcome in one step and calls back in another, so that anything can come between:
other sessions, other operations, and completions that are late. `Traffic.Sound` is kept by every
event, and says that stamps ascend and that the bridge sends to a session that is open. As long as
sessions do not overlap, `Traffic.Calm` is kept too: a queue holds at most one unit, and while it
holds one, no token is left that could add another.
-/

namespace DavGateway

/-- Somebody who waits for an operation: the session whose channel is read, and what is left to
do. -/
structure Waiter where
  session : Nat
  pending : Pending
  rest : BridgeFlow Outcome

/-- A bridge on trial, with its waiters and with the completions that have recorded an outcome but
have not called back yet. -/
structure Traffic where
  trial : BridgeTrial
  waiters : List Waiter := []
  ringing : List Nat := []

/-- What happens on a bridge. A waiter is named by its place, a completion by its ticket. -/
inductive TrafficEvent where
  | openSession
  | closeSession (session : Nat)
  | beginOperation (session : Nat) (refusal : Option Failure)
  | setOut (session ticket : Nat) (limit : Span)
  | advance (place : Nat) (rejection : Option Failure)
  | record (ticket : Nat) (outcome : Outcome)
  | callBack (ticket : Nat)
  | releaseHandle (ticket : Nat)
  | forgetPending (ticket : Nat)

namespace Traffic

/-- A bridge that has not been used. -/
def fresh (slot : Nat) : Traffic := { trial := BridgeTrial.fresh slot }

/-- The bridge. -/
def bridge (t : Traffic) : Bridge := t.trial.bridge

/-- The generation of the bridge. -/
def generation (t : Traffic) : Nat := t.bridge.generation

/-- Changes the trial. -/
def onTrial (t : Traffic) (f : BridgeTrial → BridgeTrial) : Traffic :=
  { t with trial := f t.trial }

/-- A begun operation is waited for in a session: it can no longer be waited for by others. -/
def setOut (t : Traffic) (session ticket : Nat) (limit : Span) : Traffic :=
  match t.trial.pending.find? (·.ticket == ticket) with
  | none => t
  | some pending =>
    if session ∈ t.trial.sessions then
      { t with
        trial := { t.trial with pending := t.trial.pending.filter (·.ticket != ticket) }
        waiters := t.waiters ++
          [⟨session, pending, BridgeFlow.submitAndWait t.bridge.slot pending limit⟩] }
    else t

/-- A waiter makes its next step, or leaves with its outcome. A look into the channel that finds
nothing is the last one: to look in vain before the time is over changes nothing. -/
def advance (t : Traffic) (place : Nat) (rejection : Option Failure) : Traffic :=
  match t.waiters[place]? with
  | none => t
  | some waiter =>
    match waiter.rest with
    | .done _ => { t with waiters := t.waiters.eraseIdx place }
    | .ask step resume =>
      let (answer, trial) :=
        (BridgeTrial.answer waiter.session none { failure := rejection } step).run t.trial
      { t with trial := trial, waiters := t.waiters.set place { waiter with rest := resume answer } }

/-- The store records an outcome through a handle that it still holds. -/
def record (t : Traffic) (ticket : Nat) (outcome : Outcome) : Traffic :=
  if ticket ∈ t.trial.handles then
    let (fires, board) := t.trial.board.record ticket outcome
    { t with
      trial := { t.trial with board := board }
      ringing := if fires then t.ringing ++ [ticket] else t.ringing }
  else t

/-- A completion that has recorded its outcome calls back. -/
def callBack (t : Traffic) (ticket : Nat) : Traffic :=
  if ticket ∈ t.ringing then
    { t with
      trial := { t.trial with board := t.trial.board.callBack ticket }
      ringing := t.ringing.erase ticket }
  else t

/-- Lets one event happen. A session that closes takes its waiters with it. -/
def step (t : Traffic) : TrafficEvent → Traffic
  | .openSession => t.onTrial fun trial => (trial.step .openSession).2
  | .closeSession session =>
    { t.onTrial fun trial => (trial.step (.closeSession session)).2 with
      waiters := t.waiters.filter (·.session != session) }
  | .beginOperation session refusal =>
    t.onTrial fun trial => (trial.step (.beginOperation session refusal)).2
  | .setOut session ticket limit => t.setOut session ticket limit
  | .advance place rejection => t.advance place rejection
  | .record ticket outcome => t.record ticket outcome
  | .callBack ticket => t.callBack ticket
  | .releaseHandle ticket => t.onTrial fun trial => (trial.step (.releaseHandle ticket)).2
  | .forgetPending ticket => t.onTrial fun trial => (trial.step (.forgetPending ticket)).2

/-- Lets events happen one after the other. -/
def run (t : Traffic) (events : List TrafficEvent) : Traffic := events.foldl step t

/-- Does every session open after the one before has been closed? -/
def Apart (t : Traffic) : List TrafficEvent → Prop
  | [] => True
  | event :: events =>
    (event = .openSession → t.trial.sessions = []) ∧ (t.step event).Apart events

/-- Has the token of a completion not fired yet? -/
def Unfired (t : Traffic) (ticket : Nat) : Prop :=
  t.trial.board.armed? ticket = some true ∨ ticket ∈ t.ringing

/-! ## The invariant -/

/-- What holds after every event. -/
structure Sound (t : Traffic) : Prop where
  /-- There is just the one bridge. -/
  home : t.trial.board.bridges.length = 1
  stamped : t.trial.board.Stamped
  tokens : ∀ {ticket token}, t.trial.board.token? ticket = some token →
    token.1 = BridgeTrial.home
  pending : ∀ pending ∈ t.trial.pending,
    t.trial.board.token? pending.ticket = some (BridgeTrial.home, pending.stamp)
  waiters : ∀ waiter ∈ t.waiters, waiter.rest.Only (BridgeStep.Concerns waiter.pending)
    ∧ t.trial.board.token? waiter.pending.ticket = some (BridgeTrial.home, waiter.pending.stamp)
  ringing : t.ringing.Nodup ∧ ∀ ticket ∈ t.ringing, t.trial.board.armed? ticket = some false
  queues : t.bridge.queues.map (·.1) = t.trial.sessions
  wake : ∀ session, t.bridge.wake = some session → session ∈ t.trial.sessions

/-- What holds after every event as long as sessions do not overlap. -/
structure Calm (t : Traffic) : Prop where
  sessions : t.trial.sessions.length ≤ 1
  one : ∀ entry ∈ t.bridge.queues, entry.2 ≤ 1
  spent : ∀ entry ∈ t.bridge.queues, entry.2 = 1 → ∀ {ticket stamp},
    t.trial.board.token? ticket = some (BridgeTrial.home, stamp) → t.Unfired ticket →
      stamp ≠ t.generation

/-! ## The events on the bridge -/

variable {t : Traffic}

/-- The switchboard on which an operation has been stamped and old wakes have been dropped. -/
def stampedBoard (board : Switchboard) (session : Nat) : Switchboard :=
  (board.atSlot BridgeTrial.home fun _ => (board.bridge BridgeTrial.home).bump.2).atSlot
    BridgeTrial.home fun bridge => bridge.drain session

/-- How an operation begins: on success with a token that has the new generation. -/
theorem step_beginOperation (trial : BridgeTrial) {session : Nat} (refusal : Option Failure)
    (h : session ∈ trial.sessions) :
    (trial.step (.beginOperation session refusal)).2 =
      let board := stampedBoard trial.board session
      let stamp := trial.bridge.generation + 1
      match refusal with
      | some _ => { trial with board := board }
      | none => { trial with
          board := (board.allocate BridgeTrial.home stamp).2
          handles := trial.handles ++ [board.tickets.size]
          pending := trial.pending ++ [⟨stamp, board.tickets.size⟩] } := by
  simp only [BridgeTrial.step, if_pos h]
  cases refusal <;> rfl

theorem step_beginOperation_of_not_mem (trial : BridgeTrial) {session : Nat}
    (refusal : Option Failure) (h : session ∉ trial.sessions) :
    (trial.step (.beginOperation session refusal)).2 = trial := by
  simp only [BridgeTrial.step, if_neg h]

theorem Sound.bridge_atSlot (h : t.Sound) (f : Bridge → Bridge) :
    (t.trial.board.atSlot BridgeTrial.home f).bridge BridgeTrial.home = f t.bridge :=
  Switchboard.bridge_atSlot f (h.home ▸ Nat.zero_lt_one)

theorem Sound.bridge_stampedBoard (h : t.Sound) (session : Nat) :
    (stampedBoard t.trial.board session).bridge BridgeTrial.home =
      t.bridge.bump.2.drain session := by
  have hlength := Switchboard.length_atSlot t.trial.board BridgeTrial.home
    fun _ => (t.trial.board.bridge BridgeTrial.home).bump.2
  rw [stampedBoard, Switchboard.bridge_atSlot _ (hlength ▸ h.home ▸ Nat.zero_lt_one),
    h.bridge_atSlot]
  rfl

/-- A change that touches no token keeps a bridge sound if what is left over was there before. -/
theorem Sound.change (h : t.Sound) {t' : Traffic}
    (hhome : t'.trial.board.bridges.length = 1)
    (htoken : ∀ ticket, t'.trial.board.token? ticket = t.trial.board.token? ticket)
    (hgeneration : t.generation ≤ t'.generation)
    (hpending : t'.trial.pending ⊆ t.trial.pending)
    (hwaiters : ∀ waiter ∈ t'.waiters, waiter.rest.Only (BridgeStep.Concerns waiter.pending)
      ∧ t.trial.board.token? waiter.pending.ticket = some (BridgeTrial.home, waiter.pending.stamp))
    (hringing : t'.ringing.Nodup ∧ ∀ ticket ∈ t'.ringing,
      t'.trial.board.armed? ticket = some false)
    (hqueues : t'.bridge.queues.map (·.1) = t'.trial.sessions)
    (hwake : ∀ session, t'.bridge.wake = some session → session ∈ t'.trial.sessions) :
    t'.Sound where
  home := hhome
  stamped := by
    refine h.stamped.of_tokens htoken fun slot => ?_
    -- there is one bridge, and a slot without one has the generation of an unused bridge
    by_cases hslot : slot = BridgeTrial.home
    · subst hslot
      exact hgeneration
    · have hle : 1 ≤ slot := Nat.one_le_iff_ne_zero.mpr hslot
      exact Nat.le_of_eq (by rw [Switchboard.bridge_of_length_le (h.home ▸ hle),
        Switchboard.bridge_of_length_le (hhome ▸ hle)])
  tokens := fun hsome => h.tokens (htoken _ ▸ hsome)
  pending := fun pending hp => htoken _ ▸ h.pending pending (hpending hp)
  waiters := fun waiter hw => ⟨(hwaiters waiter hw).1, htoken _ ▸ (hwaiters waiter hw).2⟩
  ringing := hringing
  queues := hqueues
  wake := hwake

/-! ## Every event keeps the invariant -/

theorem sound_fresh (slot : Nat) : (fresh slot).Sound where
  home := rfl
  stamped := ⟨fun h => by simp [fresh, BridgeTrial.fresh, Switchboard.token?] at h,
    fun h => by simp [fresh, BridgeTrial.fresh, Switchboard.token?] at h⟩
  tokens := fun h => by simp [fresh, BridgeTrial.fresh, Switchboard.token?] at h
  pending := fun _ hp => absurd hp List.not_mem_nil
  waiters := fun _ hw => absurd hw List.not_mem_nil
  ringing := ⟨List.nodup_nil, fun _ ht => absurd ht List.not_mem_nil⟩
  queues := rfl
  wake := fun _ h => nomatch h

theorem Sound.bridge_openSession (h : t.Sound) :
    (t.step .openSession).bridge = t.bridge.openSession.2 := h.bridge_atSlot _

theorem Sound.generation_openSession (h : t.Sound) :
    (t.step .openSession).generation = t.generation := by
  rw [generation, h.bridge_openSession]
  rfl

theorem Sound.openSession (h : t.Sound) : (t.step .openSession).Sound := by
  have hbridge := h.bridge_openSession
  refine h.change ?_ (fun _ => rfl) ?_ (List.Subset.refl _) h.waiters h.ringing ?_ ?_
  · exact (Switchboard.length_atSlot ..).trans h.home
  · exact Nat.le_of_eq h.generation_openSession.symm
  · rw [hbridge]
    show (t.bridge.queues ++ [(t.bridge.opened, 0)]).map Prod.fst =
      t.trial.sessions ++ [t.bridge.opened]
    rw [List.map_append, h.queues]
    rfl
  · intro session hs
    rw [hbridge, Bridge.wake_openSession] at hs
    cases hs
    exact List.mem_append_right _ List.mem_cons_self

/-- A session that is open closes, and its waiters leave. -/
theorem step_closeSession (t : Traffic) {session : Nat} (h : session ∈ t.trial.sessions) :
    t.step (.closeSession session) = { t with
      trial := { t.trial.onBridge fun b => b.closeSession session with
        sessions := t.trial.sessions.filter (· != session) }
      waiters := t.waiters.filter (·.session != session) } := by
  simp only [step, onTrial, BridgeTrial.step, if_pos h]

theorem step_closeSession_of_not_mem (t : Traffic) {session : Nat}
    (h : session ∉ t.trial.sessions) : t.step (.closeSession session) =
      { t with waiters := t.waiters.filter (·.session != session) } := by
  simp only [step, onTrial, BridgeTrial.step, if_neg h]

theorem Sound.bridge_closeSession (h : t.Sound) {session : Nat} (hs : session ∈ t.trial.sessions) :
    (t.step (.closeSession session)).bridge = t.bridge.closeSession session := by
  rw [step_closeSession t hs]
  exact h.bridge_atSlot _

theorem Sound.generation_closeSession (h : t.Sound) (session : Nat) :
    (t.step (.closeSession session)).generation = t.generation := by
  by_cases hs : session ∈ t.trial.sessions
  · rw [generation, h.bridge_closeSession hs]
    rfl
  · rw [step_closeSession_of_not_mem t hs]
    rfl

theorem Sound.closeSession (h : t.Sound) (session : Nat) :
    (t.step (.closeSession session)).Sound := by
  have hgeneration := Nat.le_of_eq (h.generation_closeSession session).symm
  by_cases hs : session ∈ t.trial.sessions
  · have hbridge := h.bridge_closeSession hs
    rw [step_closeSession t hs] at hbridge hgeneration ⊢
    -- the queue of the session goes, and then the bridge sends to nobody
    refine h.change ?_ (fun _ => rfl) hgeneration (List.Subset.refl _) ?_ h.ringing ?_ ?_
    · exact (Switchboard.length_atSlot ..).trans h.home
    · exact fun waiter hw => h.waiters waiter (List.mem_of_mem_filter hw)
    · rw [hbridge]
      show (t.bridge.queues.filter fun entry => entry.1 != session).map Prod.fst =
        t.trial.sessions.filter (· != session)
      rw [← h.queues, List.filter_map]
      rfl
    · rw [hbridge, Bridge.wake_closeSession]
      exact nofun
  · rw [step_closeSession_of_not_mem t hs]
    exact h.change h.home (fun _ => rfl) (Nat.le_refl _) (List.Subset.refl _)
      (fun waiter hw => h.waiters waiter (List.mem_of_mem_filter hw)) h.ringing h.queues h.wake

/-- A new generation has been started, and the wakes of those before have been dropped. -/
def restamp (t : Traffic) (session : Nat) : Traffic :=
  { t with trial := { t.trial with board := stampedBoard t.trial.board session } }

/-- A completion has been allocated with the live generation as its stamp. -/
def allocate (t : Traffic) : Traffic :=
  { t with trial := { t.trial with
      board := (t.trial.board.allocate BridgeTrial.home t.generation).2
      handles := t.trial.handles ++ [t.trial.board.tickets.size]
      pending := t.trial.pending ++ [⟨t.generation, t.trial.board.tickets.size⟩] } }

theorem Sound.bridge_restamp (h : t.Sound) (session : Nat) :
    (t.restamp session).bridge = t.bridge.bump.2.drain session := h.bridge_stampedBoard session

theorem Sound.generation_restamp (h : t.Sound) (session : Nat) :
    (t.restamp session).generation = t.generation + 1 := by
  rw [generation, h.bridge_restamp]
  rfl

/-- To begin is to start a generation, and then to allocate unless that is refused. -/
theorem Sound.step_beginOperation (h : t.Sound) {session : Nat} (refusal : Option Failure)
    (hs : session ∈ t.trial.sessions) :
    t.step (.beginOperation session refusal) =
      if refusal.isNone then (t.restamp session).allocate else t.restamp session := by
  have hgeneration := h.generation_restamp session
  simp only [step, onTrial, Traffic.step_beginOperation t.trial refusal hs]
  cases refusal with
  | some failure => rfl
  | none =>
    simp only [Option.isNone_none, if_true, allocate, hgeneration]
    rfl

theorem Sound.restamp (h : t.Sound) (session : Nat) : (t.restamp session).Sound := by
  refine h.change ?_ (fun _ => rfl) ?_ (List.Subset.refl _) h.waiters h.ringing ?_ ?_
  · exact (Switchboard.length_atSlot ..).trans ((Switchboard.length_atSlot ..).trans h.home)
  · rw [h.generation_restamp]
    exact Nat.le_succ _
  · rw [h.bridge_restamp]
    exact (Bridge.sessions_setQueued ..).trans h.queues
  · rw [h.bridge_restamp]
    exact h.wake

theorem Sound.allocate (h : t.Sound) (hnew : ∀ {ticket stamp},
    t.trial.board.token? ticket = some (BridgeTrial.home, stamp) → stamp < t.generation) :
    t.allocate.Sound := by
  have hkept : ∀ {ticket token}, t.trial.board.token? ticket = some token →
      t.allocate.trial.board.token? ticket = some token := by
    intro ticket token hsome
    apply Switchboard.token?_allocate.trans
    rw [if_neg (Nat.ne_of_lt (Switchboard.lt_size_of_token? hsome)), hsome]
  have hfresh : t.allocate.trial.board.token? t.trial.board.tickets.size =
      some (BridgeTrial.home, t.generation) := by
    apply Switchboard.token?_allocate.trans
    rw [if_pos rfl]
  refine ⟨h.home, h.stamped.allocate (Nat.le_refl _) hnew, ?_, ?_, ?_, ⟨h.ringing.1, ?_⟩,
    h.queues, h.wake⟩
  · intro ticket token hsome
    have hcases := Switchboard.token?_allocate.symm.trans hsome
    split at hcases
    · cases hcases
      rfl
    · exact h.tokens hcases
  · intro pending hp
    -- the operations that were pending before, and the new one
    rcases List.mem_append.mp hp with hp | hp
    · exact hkept (h.pending pending hp)
    · rw [List.mem_singleton.mp hp]
      exact hfresh
  · exact fun waiter hw => ⟨(h.waiters waiter hw).1, hkept (h.waiters waiter hw).2⟩
  · intro ticket ht
    have harmed := h.ringing.2 ticket ht
    refine (Switchboard.armed?_allocate_of_ne ?_).trans harmed
    rcases Switchboard.token?_isSome_of_armed? harmed with ⟨token, htoken⟩
    exact Nat.ne_of_lt (Switchboard.lt_size_of_token? htoken)

theorem Sound.beginOperation (h : t.Sound) (session : Nat) (refusal : Option Failure) :
    (t.step (.beginOperation session refusal)).Sound := by
  by_cases hs : session ∈ t.trial.sessions
  · rw [h.step_beginOperation refusal hs]
    split
    · apply (h.restamp session).allocate
      intro ticket stamp htoken
      -- all tokens there are belong to older generations
      rw [h.generation_restamp]
      exact Nat.lt_succ_of_le (h.stamped.le_generation htoken)
    · exact h.restamp session
  · simp only [step, onTrial, step_beginOperation_of_not_mem t.trial refusal hs]
    exact h

theorem Sound.setOut (h : t.Sound) (session ticket : Nat) (limit : Span) :
    (t.setOut session ticket limit).Sound := by
  unfold Traffic.setOut
  cases hfind : t.trial.pending.find? (·.ticket == ticket) with
  | none => exact h
  | some pending =>
    have hmem := List.mem_of_find?_eq_some hfind
    by_cases hs : session ∈ t.trial.sessions
    · simp only [if_pos hs]
      refine h.change h.home (fun _ => rfl) (Nat.le_refl _)
        (fun _ hp => List.mem_of_mem_filter hp) ?_ h.ringing h.queues h.wake
      intro waiter hw
      rcases List.mem_append.mp hw with hw | hw
      · exact h.waiters waiter hw
      · rw [List.mem_singleton.mp hw]
        exact ⟨BridgeFlow.submitAndWait_only .., h.pending pending hmem⟩
    · simp only [if_neg hs]
      exact h

/-! ### A step of a waiter -/

/-- What a waiter's step can do to a trial: it changes no token and no callback, it starts a
generation only by giving the live one up, and it adds nothing to a queue. -/
structure Mild (t : Traffic) (pending : Pending) (trial : BridgeTrial) : Prop where
  rest : trial = { t.trial with board := trial.board }
  home : trial.board.bridges.length = 1
  token : ∀ ticket, trial.board.token? ticket = t.trial.board.token? ticket
  armed : ∀ ticket, trial.board.armed? ticket = t.trial.board.armed? ticket
  generation : trial.bridge.generation = t.generation ∨
    pending.stamp = t.generation ∧ trial.bridge.generation = t.generation + 1
  sessions : trial.bridge.queues.map (·.1) = t.bridge.queues.map (·.1)
  queues : ∀ entry ∈ trial.bridge.queues,
    entry ∈ t.bridge.queues ∨ (entry.1, entry.2 + 1) ∈ t.bridge.queues
  wake : trial.bridge.wake = t.bridge.wake

/-- The trial after a step of a waiter. -/
def answered (t : Traffic) (session : Nat) (rejection : Option Failure) (step : BridgeStep) :
    BridgeTrial :=
  ((BridgeTrial.answer session none { failure := rejection } step).run t.trial).2

theorem answered_submit (session : Nat) (rejection : Option Failure) (ticket : Nat) :
    t.answered session rejection (.submit ticket) = t.trial := by
  cases rejection <;> rfl

theorem Sound.mild_answered (h : t.Sound) (session : Nat) (rejection : Option Failure)
    {pending : Pending} {step : BridgeStep} (hstep : step.Concerns pending) :
    t.Mild pending (t.answered session rejection step) := by
  cases step with
  | bump | drain => exact hstep.elim
  | allocate => exact hstep.elim
  | submit ticket =>
    rw [answered_submit]
    exact ⟨rfl, h.home, fun _ => rfl, fun _ => rfl, .inl rfl, rfl, fun _ he => .inl he, rfl⟩
  | wait ticket limit =>
    have hbridge : (t.answered session rejection (.wait ticket limit)).bridge =
        (t.bridge.poll session).2 := h.bridge_atSlot _
    refine ⟨rfl, (Switchboard.length_atSlot ..).trans h.home, fun _ => rfl, fun _ => rfl, .inl ?_,
      ?_, ?_, ?_⟩
    · rw [hbridge, Bridge.generation_poll]
      rfl
    · rw [hbridge, Bridge.sessions_poll]
    · rw [hbridge]
      exact fun _ he => Bridge.mem_poll _ he
    · rw [hbridge, Bridge.wake_poll]
  | abandon stamp =>
    have hbridge : (t.answered session rejection (.abandon stamp)).bridge =
        t.bridge.abandon stamp := h.bridge_atSlot _
    refine ⟨rfl, (Switchboard.length_atSlot ..).trans h.home, fun _ => rfl, fun _ => rfl, ?_,
      ?_, ?_, ?_⟩
    · rw [hbridge, Bridge.generation_abandon]
      -- the generation ends only if it is that of the waiter's operation
      by_cases hlive : t.bridge.generation = stamp
      · rw [if_pos hlive]
        exact .inr ⟨hstep.symm.trans hlive.symm, rfl⟩
      · rw [if_neg hlive]
        exact .inl rfl
    · rw [hbridge, Bridge.queues_abandon]
    · rw [hbridge, Bridge.queues_abandon]
      exact fun _ he => .inl he
    · rw [hbridge, Bridge.wake_abandon]
  | take ticket =>
    have hbridge : (t.answered session rejection (.take ticket)).bridge = t.bridge :=
      Switchboard.bridge_take
    refine ⟨rfl, ?_, fun _ => Switchboard.token?_take, fun _ => Switchboard.armed?_take, .inl ?_,
      ?_, ?_, ?_⟩
    · exact (congrArg List.length Switchboard.bridges_take).trans h.home
    · rw [hbridge]
      rfl
    · rw [hbridge]
    · rw [hbridge]
      exact fun _ he => .inl he
    · rw [hbridge]

theorem Mild.le_generation {pending : Pending} {trial : BridgeTrial} (h : t.Mild pending trial) :
    t.generation ≤ trial.bridge.generation := by
  rcases h.generation with heq | ⟨-, heq⟩
  · exact Nat.le_of_eq heq.symm
  · exact heq ▸ Nat.le_succ _

/-- The three outcomes of going on with a waiter: there is none, it has its outcome, or it makes a
step. -/
theorem Sound.advance_cases (h : t.Sound) (place : Nat) (rejection : Option Failure) :
    t.advance place rejection = t ∨
    t.advance place rejection = { t with waiters := t.waiters.eraseIdx place } ∨
    ∃ waiter rest trial, t.waiters[place]? = some waiter ∧ t.Mild waiter.pending trial
      ∧ rest.Only (BridgeStep.Concerns waiter.pending)
      ∧ t.advance place rejection = { t with
          trial := trial
          waiters := t.waiters.set place { waiter with rest := rest } } := by
  unfold advance
  cases hplace : t.waiters[place]? with
  | none => exact .inl rfl
  | some waiter =>
    have honly := (h.waiters waiter (List.mem_of_getElem? hplace)).1
    rcases waiter with ⟨session, pending, rest⟩
    -- a waiter that has its outcome leaves, and another makes its next step
    cases rest with
    | done outcome => exact .inr (.inl rfl)
    | emit item rest => exact item.elim
    | ask step resume =>
      rcases honly with ⟨hstep, hresume⟩
      exact .inr (.inr ⟨_, _, _, rfl, h.mild_answered session rejection hstep, hresume _, rfl⟩)

theorem Sound.advance (h : t.Sound) (place : Nat) (rejection : Option Failure) :
    (t.advance place rejection).Sound := by
  rcases h.advance_cases place rejection with
    heq | heq | ⟨waiter, rest, trial, hplace, hmild, honly, heq⟩
  · rw [heq]
    exact h
  · rw [heq]
    exact h.change h.home (fun _ => rfl) (Nat.le_refl _) (List.Subset.refl _)
      (fun _ hw => h.waiters _ (List.mem_of_mem_eraseIdx hw)) h.ringing h.queues h.wake
  · rw [heq]
    have hrest := hmild.rest
    refine h.change hmild.home hmild.token hmild.le_generation ?_ ?_ ⟨h.ringing.1, ?_⟩ ?_ ?_
    · rw [hrest]
      exact List.Subset.refl _
    · intro other ho
      -- the other waiters have not moved
      rcases List.mem_or_eq_of_mem_set ho with ho | rfl
      · exact h.waiters other ho
      · exact ⟨honly, (h.waiters waiter (List.mem_of_getElem? hplace)).2⟩
    · exact fun ticket ht => (hmild.armed ticket).trans (h.ringing.2 ticket ht)
    · apply hmild.sessions.trans
      apply h.queues.trans
      rw [hrest]
    · intro session hs
      have hwake := h.wake session (hmild.wake.symm.trans hs)
      rw [hrest]
      exact hwake

/-! ### The steps of a completion -/

theorem bridge_record (t : Traffic) (ticket : Nat) (outcome : Outcome) :
    (t.record ticket outcome).bridge = t.bridge := by
  unfold Traffic.record
  split
  · exact Switchboard.bridge_record
  · rfl

theorem Sound.record (h : t.Sound) (ticket : Nat) (outcome : Outcome) :
    (t.record ticket outcome).Sound := by
  have hbridge := t.bridge_record ticket outcome
  unfold Traffic.record at hbridge ⊢
  by_cases hhandle : ticket ∈ t.trial.handles
  · rw [if_pos hhandle] at hbridge ⊢
    refine h.change ?_ (fun _ => Switchboard.token?_record) ?_ (List.Subset.refl _) h.waiters ?_
      ?_ ?_
    · exact (congrArg List.length Switchboard.bridges_record).trans h.home
    · exact Nat.le_of_eq (congrArg Bridge.generation hbridge.symm)
    · by_cases hfires : (t.trial.board.record ticket outcome).1 = true
      · -- the callback becomes due, which it was not before, because it was armed
        rcases Switchboard.armed?_of_record hfires with ⟨hbefore, hafter⟩
        have hnew : ticket ∉ t.ringing := by
          intro hmem
          rw [h.ringing.2 ticket hmem] at hbefore
          cases hbefore
        simp only [if_pos hfires]
        refine ⟨h.ringing.1.append (List.nodup_singleton _) ?_, ?_⟩
        · exact fun other hring hone => hnew (List.mem_singleton.mp hone ▸ hring)
        · intro other ho
          rcases List.mem_append.mp ho with ho | ho
          · exact Switchboard.armed?_record_of_false (h.ringing.2 other ho)
          · rw [List.mem_singleton.mp ho]
            exact hafter
      · simp only [if_neg hfires]
        exact ⟨h.ringing.1, fun other ho =>
          Switchboard.armed?_record_of_false (h.ringing.2 other ho)⟩
    · rw [hbridge]
      exact h.queues
    · rw [hbridge]
      exact h.wake
  · rw [if_neg hhandle]
    exact h

/-- The token of a completion that has not called back yet. -/
theorem Sound.token?_of_ringing (h : t.Sound) {ticket : Nat} (ht : ticket ∈ t.ringing) :
    ∃ stamp, t.trial.board.token? ticket = some (BridgeTrial.home, stamp) := by
  rcases Switchboard.token?_isSome_of_armed? (h.ringing.2 ticket ht) with ⟨⟨slot, stamp⟩, htoken⟩
  have hslot : slot = BridgeTrial.home := h.tokens htoken
  exact ⟨stamp, hslot ▸ htoken⟩

/-- A completion that calls back fires its token at the bridge. -/
theorem Sound.bridge_callBack (h : t.Sound) {ticket stamp : Nat} (ht : ticket ∈ t.ringing)
    (htoken : t.trial.board.token? ticket = some (BridgeTrial.home, stamp)) :
    (t.callBack ticket).bridge = t.bridge.fire stamp := by
  unfold callBack
  rw [if_pos ht]
  show (t.trial.board.callBack ticket).bridge BridgeTrial.home = _
  rw [Switchboard.callBack_eq htoken]
  exact h.bridge_atSlot _

theorem Sound.generation_callBack (h : t.Sound) (ticket : Nat) :
    (t.callBack ticket).generation = t.generation := by
  by_cases ht : ticket ∈ t.ringing
  · rcases h.token?_of_ringing ht with ⟨stamp, htoken⟩
    rw [generation, h.bridge_callBack ht htoken, Bridge.generation_fire, generation]
  · rw [Traffic.callBack, if_neg ht]

theorem Sound.callBack (h : t.Sound) (ticket : Nat) : (t.callBack ticket).Sound := by
  by_cases ht : ticket ∈ t.ringing
  · rcases h.token?_of_ringing ht with ⟨stamp, htoken⟩
    have hbridge := h.bridge_callBack ht htoken
    have hstep : t.callBack ticket = { t with
        trial := { t.trial with board := t.trial.board.callBack ticket }
        ringing := t.ringing.erase ticket } := if_pos ht
    refine h.change ?_ ?_ ?_ ?_ ?_ ?_ ?_ ?_
    · rw [hstep]
      exact Switchboard.length_callBack.trans h.home
    · rw [hstep]
      exact fun _ => Switchboard.token?_callBack
    · exact Nat.le_of_eq (h.generation_callBack ticket).symm
    · rw [hstep]
      exact List.Subset.refl _
    · rw [hstep]
      exact h.waiters
    · rw [hstep]
      refine ⟨h.ringing.1.erase ticket, fun other ho => ?_⟩
      rw [← h.ringing.2 other (List.mem_of_mem_erase ho)]
      exact congrArg (Option.map _) Switchboard.completion?_callBack
    · rw [hbridge, Bridge.sessions_fire, hstep]
      exact h.queues
    · rw [hbridge, Bridge.wake_fire, hstep]
      exact h.wake
  · have hstep : t.callBack ticket = t := if_neg ht
    rw [hstep]
    exact h

/-! ### Steps and runs -/

theorem Sound.forgetPending (h : t.Sound) (ticket : Nat) :
    (t.step (.forgetPending ticket)).Sound := by
  simp only [step, onTrial, BridgeTrial.step]
  split
  · exact h.change h.home (fun _ => rfl) (Nat.le_refl _) (fun _ hp => List.mem_of_mem_filter hp)
      h.waiters h.ringing h.queues h.wake
  · exact h

/-- One event keeps a bridge sound. -/
theorem Sound.step (h : t.Sound) (event : TrafficEvent) : (t.step event).Sound := by
  cases event with
  | openSession => exact h.openSession
  | closeSession session => exact h.closeSession session
  | beginOperation session refusal => exact h.beginOperation session refusal
  | setOut session ticket limit => exact h.setOut session ticket limit
  | advance place rejection => exact h.advance place rejection
  | record ticket outcome => exact h.record ticket outcome
  | callBack ticket => exact h.callBack ticket
  | releaseHandle ticket =>
    exact h.change h.home (fun _ => rfl) (Nat.le_refl _) (List.Subset.refl _) h.waiters h.ringing
      h.queues h.wake
  | forgetPending ticket => exact h.forgetPending ticket

/-- Every run keeps a bridge sound. -/
theorem Sound.run (h : t.Sound) (events : List TrafficEvent) : (t.run events).Sound := by
  -- induction on the events, with the invariant carried from step to step
  induction events generalizing t with
  | nil => exact h
  | cons event events ih => exact ih (h.step event)

/-! ## Sessions that do not overlap -/

/-- A change that adds no unit and no token keeps a bridge calm. -/
theorem Calm.change (hc : t.Calm) (h : t.Sound) {t' : Traffic}
    (hsessions : t'.trial.sessions.length ≤ 1)
    (hqueues : ∀ entry ∈ t'.bridge.queues, entry.2 = 0 ∨ entry ∈ t.bridge.queues ∨
      (entry.1, entry.2 + 1) ∈ t.bridge.queues)
    (htoken : ∀ ticket, t'.trial.board.token? ticket = t.trial.board.token? ticket)
    (hunfired : ∀ ticket, t'.Unfired ticket → t.Unfired ticket)
    (hgeneration : t'.generation = t.generation ∨ t'.generation = t.generation + 1) : t'.Calm where
  sessions := hsessions
  one := by
    intro entry he
    rcases hqueues entry he with hzero | hold | hmore
    · exact hzero ▸ Nat.zero_le 1
    · exact hc.one entry hold
    · exact Nat.le_of_succ_le (hc.one _ hmore)
  spent := by
    intro entry he hone ticket stamp hsome hun
    rw [htoken] at hsome
    -- in a new generation every token there is is old
    rcases hgeneration with hsame | hnext
    · rw [hsame]
      -- a queue with one unit has kept it, since none was added and none held two
      rcases hqueues entry he with hzero | hold | hmore
      · omega
      · exact hc.spent entry hold hone hsome (hunfired ticket hun)
      · have htwo := hc.one _ hmore
        simp only at htwo
        omega
    · rw [hnext]
      exact Nat.ne_of_lt (Nat.lt_succ_of_le (h.stamped.le_generation hsome))

theorem calm_fresh (slot : Nat) : (fresh slot).Calm where
  sessions := Nat.zero_le 1
  one := fun _ he => absurd he List.not_mem_nil
  spent := fun _ he => absurd he List.not_mem_nil

/-- The only session that is open has the only queue. -/
theorem Calm.openSession (h : t.Sound) (hnone : t.trial.sessions = []) :
    (t.step .openSession).Calm := by
  have hempty : t.bridge.queues = [] := List.map_eq_nil_iff.mp (h.queues.trans hnone)
  have hbridge := h.bridge_openSession
  have hqueues : (t.step .openSession).bridge.queues = [(t.bridge.opened, 0)] := by
    rw [hbridge]
    show t.bridge.queues ++ [(t.bridge.opened, 0)] = _
    rw [hempty]
    rfl
  refine ⟨?_, ?_, ?_⟩
  · show (t.trial.sessions ++ [t.bridge.opened]).length ≤ 1
    rw [hnone]
    exact Nat.le_refl 1
  · intro entry he
    rw [hqueues] at he
    rw [List.mem_singleton.mp he]
    exact Nat.zero_le 1
  · intro entry he hone
    rw [hqueues] at he
    rw [List.mem_singleton.mp he] at hone
    cases hone

theorem Calm.closeSession (hc : t.Calm) (h : t.Sound) (session : Nat) :
    (t.step (.closeSession session)).Calm := by
  have hgeneration := h.generation_closeSession session
  by_cases hs : session ∈ t.trial.sessions
  · have hbridge := h.bridge_closeSession hs
    rw [step_closeSession t hs] at hbridge hgeneration ⊢
    refine hc.change h ?_ ?_ (fun _ => rfl) (fun _ hun => hun) (.inl hgeneration)
    · exact Nat.le_trans (List.length_filter_le ..) hc.sessions
    · rw [hbridge]
      exact fun entry he => .inr (.inl (List.mem_of_mem_filter he))
  · rw [step_closeSession_of_not_mem t hs]
    exact hc.change h hc.sessions (fun _ he => .inr (.inl he)) (fun _ => rfl) (fun _ hun => hun)
      (.inl rfl)

/-- A new generation begins with empty queues. -/
theorem Calm.queues_restamp (hc : t.Calm) (h : t.Sound) {session : Nat}
    (hs : session ∈ t.trial.sessions) :
    ∀ entry ∈ (t.restamp session).bridge.queues, entry.2 = 0 := by
  intro entry he
  rw [h.bridge_restamp] at he
  rcases Bridge.mem_setQueued _ he with ⟨n, -, rfl⟩ | ⟨hne, hmem⟩
  · rfl
  · -- the session of another queue would be a second one
    have hother : entry.1 ∈ t.trial.sessions := h.queues ▸ List.mem_map_of_mem hmem
    rcases List.length_eq_one_iff.mp (Nat.le_antisymm hc.sessions (List.length_pos_of_mem hs))
        with ⟨only, honly⟩
    rw [honly, List.mem_singleton] at hs hother
    exact absurd (hother.trans hs.symm) hne

theorem Calm.beginOperation (hc : t.Calm) (h : t.Sound) (session : Nat)
    (refusal : Option Failure) : (t.step (.beginOperation session refusal)).Calm := by
  by_cases hs : session ∈ t.trial.sessions
  · have hzero := hc.queues_restamp h hs
    have hcalm : (t.restamp session).Calm :=
      hc.change h hc.sessions (fun entry he => .inl (hzero entry he)) (fun _ => rfl)
        (fun _ hun => hun) (.inr (h.generation_restamp session))
    rw [h.step_beginOperation refusal hs]
    split
    · refine ⟨hcalm.sessions, hcalm.one, ?_⟩
      intro entry he hone
      -- the queues have just been emptied
      rw [hzero entry he] at hone
      cases hone
    · exact hcalm
  · simp only [Traffic.step, onTrial, step_beginOperation_of_not_mem t.trial refusal hs]
    exact hc

theorem Calm.setOut (hc : t.Calm) (session ticket : Nat) (limit : Span) :
    (t.setOut session ticket limit).Calm := by
  unfold Traffic.setOut
  split
  · exact hc
  · split
    · exact ⟨hc.sessions, hc.one, hc.spent⟩
    · exact hc

theorem Calm.advance (hc : t.Calm) (h : t.Sound) (place : Nat) (rejection : Option Failure) :
    (t.advance place rejection).Calm := by
  rcases h.advance_cases place rejection with
    heq | heq | ⟨waiter, rest, trial, -, hmild, -, heq⟩
  · rw [heq]
    exact hc
  · rw [heq]
    exact ⟨hc.sessions, hc.one, hc.spent⟩
  · rw [heq]
    refine hc.change h ?_ (fun entry he => .inr (hmild.queues entry he)) hmild.token ?_ ?_
    · rw [hmild.rest]
      exact hc.sessions
    · intro ticket hun
      rcases hun with harmed | hring
      · exact .inl ((hmild.armed ticket).symm.trans harmed)
      · exact .inr hring
    · exact hmild.generation.imp id And.right

theorem Calm.record (hc : t.Calm) (h : t.Sound) (ticket : Nat) (outcome : Outcome) :
    (t.record ticket outcome).Calm := by
  have hbridge := t.bridge_record ticket outcome
  unfold Traffic.record at hbridge ⊢
  by_cases hhandle : ticket ∈ t.trial.handles
  · rw [if_pos hhandle] at hbridge ⊢
    refine hc.change h hc.sessions ?_ (fun _ => Switchboard.token?_record) ?_ (.inl ?_)
    · rw [hbridge]
      exact fun entry he => .inr (.inl he)
    · intro other hun
      rcases hun with harmed | hring
      · exact .inl (Switchboard.armed?_of_record_true harmed)
      · -- whoever is to call back now was armed before
        by_cases hfires : (t.trial.board.record ticket outcome).1 = true
        · simp only [if_pos hfires] at hring
          rcases List.mem_append.mp hring with hring | hring
          · exact .inr hring
          · rw [List.mem_singleton.mp hring]
            exact .inl (Switchboard.armed?_of_record hfires).1
        · simp only [if_neg hfires] at hring
          exact .inr hring
    · exact congrArg Bridge.generation hbridge
  · rw [if_neg hhandle]
    exact hc

/-- The live token, which can fire only once, finds the queue of its channel empty. -/
theorem Calm.callBack (hc : t.Calm) (h : t.Sound) (ticket : Nat) : (t.callBack ticket).Calm := by
  by_cases ht : ticket ∈ t.ringing
  · rcases h.token?_of_ringing ht with ⟨stamp, htoken⟩
    have hbridge := h.bridge_callBack ht htoken
    have hstep : t.callBack ticket = { t with
        trial := { t.trial with board := t.trial.board.callBack ticket }
        ringing := t.ringing.erase ticket } := if_pos ht
    have htokens : ∀ other,
        (t.callBack ticket).trial.board.token? other = t.trial.board.token? other := by
      rw [hstep]
      exact fun _ => Switchboard.token?_callBack
    have hunfired : ∀ other, (t.callBack ticket).Unfired other →
        t.Unfired other ∧ other ≠ ticket := by
      rw [hstep]
      intro other hun
      rcases hun with harmed | hring
      · -- one that is armed is not the one that calls back now
        have hsame : t.trial.board.armed? other = some true :=
          (congrArg (Option.map _) Switchboard.completion?_callBack).symm.trans harmed
        refine ⟨.inl hsame, ?_⟩
        rintro rfl
        rw [h.ringing.2 other ht] at hsame
        cases hsame
      · have hmem := h.ringing.1.mem_erase_iff.mp hring
        exact ⟨.inr hmem.2, hmem.1⟩
    have hgeneration := h.generation_callBack ticket
    have hsessions : (t.callBack ticket).trial.sessions.length ≤ 1 := by
      rw [hstep]
      exact hc.sessions
    by_cases hlive : stamp = t.generation
    · -- no queue holds a unit, because this token is live and has not fired
      have hzero : ∀ entry ∈ t.bridge.queues, entry.2 = 0 := by
        intro entry he
        have hle := hc.one entry he
        have hne : entry.2 ≠ 1 := fun hone => hc.spent entry he hone htoken (.inr ht) hlive
        omega
      refine ⟨hsessions, ?_, ?_⟩
      · intro entry he
        rw [hbridge] at he
        exact Bridge.mem_fire_le _ he hzero
      · intro entry he hone other stamp' hsome hun
        rw [htokens] at hsome
        rw [hgeneration]
        rintro rfl
        exact (hunfired other hun).2 (h.stamped.eq_of_token? hsome (hlive ▸ htoken))
    · -- a token of an older generation puts nothing anywhere
      refine hc.change h hsessions ?_ htokens (fun other hun => (hunfired other hun).1)
        (.inl hgeneration)
      intro entry he
      rw [hbridge, Bridge.fire_of_ne _ hlive] at he
      exact .inr (.inl he)
  · have hstep : t.callBack ticket = t := if_neg ht
    rw [hstep]
    exact hc

/-- One event keeps a bridge calm, unless it opens a session beside another. -/
theorem Calm.step (hc : t.Calm) (h : t.Sound) (event : TrafficEvent)
    (hopen : event = .openSession → t.trial.sessions = []) : (t.step event).Calm := by
  cases event with
  | openSession => exact Calm.openSession h (hopen rfl)
  | closeSession session => exact hc.closeSession h session
  | beginOperation session refusal => exact hc.beginOperation h session refusal
  | setOut session ticket limit => exact hc.setOut session ticket limit
  | advance place rejection => exact hc.advance h place rejection
  | record ticket outcome => exact hc.record h ticket outcome
  | callBack ticket => exact hc.callBack h ticket
  | releaseHandle ticket => exact ⟨hc.sessions, hc.one, hc.spent⟩
  | forgetPending ticket =>
    simp only [Traffic.step, onTrial, BridgeTrial.step]
    split
    · exact ⟨hc.sessions, hc.one, hc.spent⟩
    · exact hc

/-- Every run whose sessions do not overlap keeps a bridge calm. -/
theorem Calm.run (hc : t.Calm) (h : t.Sound) (events : List TrafficEvent)
    (hapart : t.Apart events) : (t.run events).Calm := by
  -- both invariants are carried along, since calm steps rest on sound ones
  induction events generalizing t with
  | nil => exact hc
  | cons event events ih => exact ih (hc.step h event hapart.1) (h.step event) hapart.2

/-! ## What holds in every run -/

/-- The stamps of the operations that were begun, in the order in which they were. -/
def stamps (t : Traffic) : List Nat := t.trial.board.tickets.toList.map (·.stamp)

/-- What can be said of a bridge at any time, and of whatever happens to it next. -/
structure Lawful (t : Traffic) : Prop where
  generation_le : ∀ event, t.generation ≤ (t.step event).generation
  stamps_ascend : t.stamps.Pairwise (· < ·)
  begun : ∀ session refusal pending,
    (t.trial.step (.beginOperation session refusal)).1 = .begun pending →
      (t.step (.beginOperation session refusal)).stamps = t.stamps ++ [pending.stamp]
  one_live : ∀ {ticket other}, t.Unfired ticket → t.Unfired other →
    t.trial.board.token? ticket = some (BridgeTrial.home, t.generation) →
      t.trial.board.token? other = some (BridgeTrial.home, t.generation) → ticket = other
  fires : ∀ ticket ∈ t.ringing, ∃ stamp,
    t.trial.board.token? ticket = some (BridgeTrial.home, stamp)
      ∧ (stamp ≠ t.generation → (t.step (.callBack ticket)).bridge = t.bridge)
      ∧ (t.bridge.wake = none → (t.step (.callBack ticket)).bridge = t.bridge)
      ∧ ∀ session, t.bridge.wake = some session → stamp = t.generation → ∃ units,
        t.bridge.queued? session = some units
          ∧ (t.step (.callBack ticket)).bridge.queued? session = some (units + 1)
          ∧ (∀ other, other ≠ session →
            (t.step (.callBack ticket)).bridge.queued? other = t.bridge.queued? other)
          ∧ (t.step (.callBack ticket)).generation = t.generation
          ∧ (t.step (.callBack ticket)).bridge.wake = t.bridge.wake
  gives_up : ∀ place rejection, (t.step (.advance place rejection)).generation ≠ t.generation →
    ∃ waiter, t.waiters[place]? = some waiter ∧ waiter.pending.stamp = t.generation

/-- A generation starts when an operation begins, or when an operation with the live stamp is
given up. -/
theorem Sound.generation_cases (h : t.Sound) (event : TrafficEvent) :
    (t.step event).generation = t.generation ∨
    (t.step event).generation = t.generation + 1 ∧
      ((∃ session refusal, event = .beginOperation session refusal) ∨
        ∃ place rejection waiter, event = .advance place rejection
          ∧ t.waiters[place]? = some waiter ∧ waiter.pending.stamp = t.generation) := by
  cases event with
  | openSession => exact .inl h.generation_openSession
  | closeSession session => exact .inl (h.generation_closeSession session)
  | beginOperation session refusal =>
    by_cases hs : session ∈ t.trial.sessions
    · refine .inr ⟨?_, .inl ⟨session, refusal, rfl⟩⟩
      rw [h.step_beginOperation refusal hs, ← h.generation_restamp session]
      split <;> rfl
    · exact .inl (congrArg (fun trial : BridgeTrial => trial.bridge.generation)
        (step_beginOperation_of_not_mem t.trial refusal hs))
  | setOut session ticket limit =>
    left
    simp only [Traffic.step, Traffic.setOut]
    split
    · rfl
    · split <;> rfl
  | advance place rejection =>
    rcases h.advance_cases place rejection with
      heq | heq | ⟨waiter, rest, trial, hplace, hmild, -, heq⟩
    · left
      rw [Traffic.step, heq]
    · left
      rw [Traffic.step, heq]
      rfl
    · rw [Traffic.step, heq]
      -- a step of the waiter ends the generation only by giving its own operation up
      rcases hmild.generation with hsame | ⟨hstamp, hnext⟩
      · exact .inl hsame
      · exact .inr ⟨hnext, .inr ⟨place, rejection, waiter, rfl, hplace, hstamp⟩⟩
  | record ticket outcome => exact .inl (congrArg Bridge.generation (t.bridge_record ..))
  | callBack ticket => exact .inl (h.generation_callBack ticket)
  | releaseHandle ticket => exact .inl rfl
  | forgetPending ticket =>
    left
    simp only [Traffic.step, onTrial, BridgeTrial.step]
    split <;> rfl

/-- A begun operation puts its stamp behind those of the operations before. -/
theorem Sound.stamps_begun (h : t.Sound) {session : Nat} {refusal : Option Failure}
    {pending : Pending}
    (hbegun : (t.trial.step (.beginOperation session refusal)).1 = .begun pending) :
    (t.step (.beginOperation session refusal)).stamps = t.stamps ++ [pending.stamp] := by
  by_cases hs : session ∈ t.trial.sessions
  · simp only [BridgeTrial.step, if_pos hs] at hbegun
    cases refusal with
    | some failure => cases hbegun
    | none =>
      cases hbegun
      rw [h.step_beginOperation none hs]
      simp only [Option.isNone_none, if_true, stamps, Traffic.allocate, Switchboard.allocate,
        Array.toList_push, List.map_append, h.generation_restamp]
      rfl
  · simp only [BridgeTrial.step, if_neg hs] at hbegun
    cases hbegun

theorem Sound.stamps_ascend (h : t.Sound) : t.stamps.Pairwise (· < ·) := by
  rw [stamps, List.pairwise_map, List.pairwise_iff_getElem]
  intro earlier later hearlier hlater hlt
  have htoken : ∀ {n : Nat} (hn : n < t.trial.board.tickets.toList.length),
      t.trial.board.token? n =
        some (BridgeTrial.home, t.trial.board.tickets.toList[n].stamp) := by
    intro n hn
    have hsome : t.trial.board.token? n = some (t.trial.board.tickets.toList[n].slot,
        t.trial.board.tickets.toList[n].stamp) := by
      rw [Switchboard.token?, ← Array.getElem?_toList, List.getElem?_eq_getElem hn,
        Option.map_some]
    have hslot := h.tokens hsome
    simp only at hslot
    rw [hsome, hslot]
  exact h.stamped.ascending (htoken hearlier) (htoken hlater) hlt

theorem Sound.fires (h : t.Sound) {ticket : Nat} (ht : ticket ∈ t.ringing) : ∃ stamp,
    t.trial.board.token? ticket = some (BridgeTrial.home, stamp)
      ∧ (stamp ≠ t.generation → (t.step (.callBack ticket)).bridge = t.bridge)
      ∧ (t.bridge.wake = none → (t.step (.callBack ticket)).bridge = t.bridge)
      ∧ ∀ session, t.bridge.wake = some session → stamp = t.generation → ∃ units,
        t.bridge.queued? session = some units
          ∧ (t.step (.callBack ticket)).bridge.queued? session = some (units + 1)
          ∧ (∀ other, other ≠ session →
            (t.step (.callBack ticket)).bridge.queued? other = t.bridge.queued? other)
          ∧ (t.step (.callBack ticket)).generation = t.generation
          ∧ (t.step (.callBack ticket)).bridge.wake = t.bridge.wake := by
  rcases h.token?_of_ringing ht with ⟨stamp, htoken⟩
  have hbridge : (t.step (.callBack ticket)).bridge = t.bridge.fire stamp :=
    h.bridge_callBack ht htoken
  refine ⟨stamp, htoken, ?_, ?_, ?_⟩
  · exact fun hne => hbridge.trans (Bridge.fire_of_ne _ hne)
  · exact fun hnone => hbridge.trans (Bridge.fire_of_wake_none _ stamp hnone)
  · rintro session hwake rfl
    have hopen : session ∈ t.bridge.queues.map (·.1) := h.queues ▸ h.wake session hwake
    rcases Bridge.queued?_isSome_of_mem _ hopen with ⟨units, hunits⟩
    have hfired : t.bridge.fire t.generation = t.bridge.setQueued session (· + 1) :=
      Bridge.fire_of_wake_some _ hwake
    refine ⟨units, hunits, ?_, ?_, h.generation_callBack ticket, ?_⟩
    · rw [hbridge, hfired, Bridge.queued?_setQueued, if_pos rfl, hunits]
      rfl
    · intro other hne
      rw [hbridge, hfired, Bridge.queued?_setQueued, if_neg hne]
    · rw [hbridge, Bridge.wake_fire]

theorem Sound.lawful (h : t.Sound) : t.Lawful where
  generation_le := by
    intro event
    rcases h.generation_cases event with heq | ⟨heq, -⟩
    · exact Nat.le_of_eq heq.symm
    · exact heq ▸ Nat.le_succ _
  stamps_ascend := h.stamps_ascend
  begun := fun _ _ _ hbegun => h.stamps_begun hbegun
  one_live := fun _ _ ht ho => h.stamped.eq_of_token? ht ho
  fires := fun _ ht => h.fires ht
  gives_up := by
    intro place rejection hne
    rcases h.generation_cases (.advance place rejection) with heq | ⟨-, hbegin | hadvance⟩
    · exact absurd heq hne
    · rcases hbegin with ⟨_, _, heq⟩
      cases heq
    · rcases hadvance with ⟨_, _, waiter, heq, hplace, hstamp⟩
      cases heq
      exact ⟨waiter, hplace, hstamp⟩

end Traffic

/-- A bridge is lawful after any events: generations only grow, stamps ascend, at most one token
that has not fired is live, a token that is not live changes nothing when it fires while the live
one puts one unit into the channel there is, and giving an operation up ends a generation only if
it is that of the operation. If sessions do not overlap, no queue ever holds two units. -/
theorem traffic_lawful (slot : Nat) (events : List TrafficEvent) :
    ((Traffic.fresh slot).run events).Lawful ∧
      ((Traffic.fresh slot).Apart events → ∀ session units,
        ((Traffic.fresh slot).run events).bridge.queued? session = some units → units ≤ 1) := by
  have hsound := (Traffic.sound_fresh slot).run events
  refine ⟨hsound.lawful, fun hapart session units hunits => ?_⟩
  have hcalm := (Traffic.calm_fresh slot).run (Traffic.sound_fresh slot) events hapart
  exact hcalm.one _ (Bridge.mem_queues_of_queued? _ hunits)

/-- A session is closed with an operation in flight whose completion comes only after the next
session has opened: the queue of that session holds the unit of the late token and no more. -/
theorem traffic_lawful_late_completion :
    let events : List TrafficEvent :=
      [.openSession, .beginOperation 0 none, .closeSession 0, .openSession, .record 0 (.ok .done),
        .callBack 0]
    (Traffic.fresh 1).Apart events ∧ ((Traffic.fresh 1).run events).Lawful
      ∧ ((Traffic.fresh 1).run events).bridge.queued? 1 = some 1
      ∧ ∀ session units,
          ((Traffic.fresh 1).run events).bridge.queued? session = some units → units ≤ 1 := by
  intro events
  have hapart : (Traffic.fresh 1).Apart events :=
    ⟨fun _ => rfl, nofun, nofun, fun _ => rfl, nofun, nofun, trivial⟩
  rcases traffic_lawful 1 events with ⟨hlawful, hone⟩
  exact ⟨hapart, hlawful, rfl, hone hapart⟩

end DavGateway
