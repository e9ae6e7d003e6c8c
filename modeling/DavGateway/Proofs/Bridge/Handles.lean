import DavGateway.Completion

/-!
# A completion in many hands

A completion is used through handles: the waiter holds one, the store another, and each can be
cloned. To complete it takes a call two steps. Under the lock it records its outcome and takes the
callback out; it runs the callback only after it has given the lock back, so that anything can come
between the two. What is seen of a run is its history, and `SharedCompletion.Accounts` ties the state
to it: the call that took the lock first is the one whose outcome can be taken and the one that runs
the callback, and no other call leaves a trace.
-/

namespace DavGateway

/-- A completion with the handles that are held, the number of handles there have been, and the
calls that have taken the callback out and not run it yet. -/
structure SharedCompletion where
  completion : Completion := {}
  handles : List Nat := [0]
  made : Nat := 1
  ringing : List Nat := []

/-- What is done with a completion. A call that completes it makes two events of this, `record` and
later `callBack`; its handle may be released between them. -/
inductive CompletionEvent where
  | clone (handle : Nat)
  | release (handle : Nat)
  | record (call handle : Nat) (outcome : Outcome)
  | callBack (call : Nat)
  | take (handle : Nat)
  | isComplete (handle : Nat)

/-- What is seen of an event. -/
inductive CompletionReport where
  | done
  | cloned (handle : Nat)
  | calledBack
  | taken (outcome : Option Outcome)
  | flag (value : Bool)
  | noHandle

/-- The events of a run, each with what was seen of it. -/
abbrev CompletionHistory := List (CompletionEvent × CompletionReport)

namespace CompletionHistory

variable (past : CompletionHistory)

/-- A complete call that took the lock, with its outcome. -/
def attempt? : CompletionEvent × CompletionReport → Option (Nat × Outcome)
  | (.record call _ outcome, .done) => some (call, outcome)
  | _ => none

/-- A complete call that ran the callback. -/
def caller? : CompletionEvent × CompletionReport → Option Nat
  | (.callBack call, .calledBack) => some call
  | _ => none

/-- An outcome that was handed over. -/
def taking? : CompletionEvent × CompletionReport → Option Outcome
  | (_, .taken outcome) => outcome
  | _ => none

/-- An answer to the question whether there is an outcome. -/
def flag? : CompletionEvent × CompletionReport → Option Bool
  | (_, .flag value) => some value
  | _ => none

/-- The complete calls that took the lock, in this order, each with its outcome. -/
def attempts : List (Nat × Outcome) := past.filterMap attempt?

/-- The complete calls that ran the callback. -/
def callers : List Nat := past.filterMap caller?

/-- The outcomes that were handed over. -/
def takings : List Outcome := past.filterMap taking?

/-- The answers to the question whether there is an outcome. -/
def flags : List Bool := past.filterMap flag?

/-- The complete call that was the first to take the lock. -/
def first? : Option (Nat × Outcome) := past.attempts.head?

/-! ## One event more -/

variable {past : CompletionHistory} (seen : CompletionEvent × CompletionReport)

theorem filterMap_concat {α β : Type} (f : α → Option β) (l : List α) (a : α) :
    (l ++ [a]).filterMap f = l.filterMap f ++ (f a).toList := by
  rw [List.filterMap_append, List.filterMap_cons]
  cases f a <;> rfl

@[simp] theorem callers_concat :
    callers (past ++ [seen]) = past.callers ++ (caller? seen).toList := filterMap_concat ..

@[simp] theorem takings_concat :
    takings (past ++ [seen]) = past.takings ++ (taking? seen).toList := filterMap_concat ..

@[simp] theorem flags_concat :
    flags (past ++ [seen]) = past.flags ++ (flag? seen).toList := filterMap_concat ..

/-- The first call that took the lock stays the first. -/
@[simp] theorem first?_concat :
    first? (past ++ [seen]) = past.first?.or (attempt? seen) := by
  rw [first?, attempts, filterMap_concat, List.head?_append]
  cases attempt? seen <;> rfl

end CompletionHistory

namespace SharedCompletion

open CompletionHistory

/-- A completion that has just been made, with one handle. -/
def fresh : SharedCompletion := {}

/-- Does something through a handle, if the handle is held. -/
def through (s : SharedCompletion) (handle : Nat) (done : CompletionReport × SharedCompletion) :
    CompletionReport × SharedCompletion :=
  if handle ∈ s.handles then done else (.noHandle, s)

/-- A complete call takes the lock. It holds the callback afterwards if the completion had it. -/
def record (s : SharedCompletion) (call : Nat) (outcome : Outcome) : SharedCompletion :=
  let (fires, completion) := s.completion.record outcome
  { s with
    completion := completion
    ringing := if fires then s.ringing ++ [call] else s.ringing }

/-- Lets one event happen. -/
def step (s : SharedCompletion) : CompletionEvent → CompletionReport × SharedCompletion
  | .clone handle =>
    s.through handle
      (.cloned s.made, { s with handles := s.handles ++ [s.made], made := s.made + 1 })
  | .release handle => s.through handle (.done, { s with handles := s.handles.erase handle })
  | .record call handle outcome => s.through handle (.done, s.record call outcome)
  | .callBack call =>
    if call ∈ s.ringing then (.calledBack, { s with ringing := s.ringing.erase call })
    else (.done, s)
  | .take handle =>
    let (outcome, completion) := s.completion.take
    s.through handle (.taken outcome, { s with completion := completion })
  | .isComplete handle => s.through handle (.flag s.completion.isComplete, s)

/-- Lets events happen one after the other. -/
def run (s : SharedCompletion) (events : List CompletionEvent) : SharedCompletion :=
  events.foldl (fun s event => (s.step event).2) s

/-- What is seen of events that happen one after the other. -/
def history (s : SharedCompletion) : List CompletionEvent → CompletionHistory
  | [] => []
  | event :: events => (event, (s.step event).1) :: (s.step event).2.history events

/-! ## The state and its past -/

/-- The past accounts for the state: the first call that took the lock has run the callback or has
it still to run, and its outcome has been handed over or is still there. -/
structure Accounts (s : SharedCompletion) (past : CompletionHistory) : Prop where
  fired : s.completion.fired = past.first?.isSome
  armed : s.completion.armed = !s.completion.fired
  callback : past.callers ++ s.ringing = (past.first?.map (·.1)).toList
  outcome : past.takings ++ s.completion.outcome.toList = (past.first?.map (·.2)).toList
  flags : past.flags.Pairwise (· ≤ ·)
  seen : ∀ value ∈ past.flags, value ≤ s.completion.fired

variable {s s' : SharedCompletion} {past : CompletionHistory}

theorem accounts_fresh : fresh.Accounts [] where
  fired := rfl
  armed := rfl
  callback := rfl
  outcome := rfl
  flags := .nil
  seen := nofun

/-! ### What one event makes of it -/

section

variable {seen : CompletionEvent × CompletionReport}

/-- As long as the first call stays the first, all that has to fit is what is seen of the event: a
call that has run the callback is no longer due, an outcome that was handed over is no longer there,
and an answer is what the completion says. -/
theorem Accounts.next (h : s.Accounts past)
    (hfirst : past.first?.or (attempt? seen) = past.first?)
    (hfired : s'.completion.fired = s.completion.fired)
    (harmed : s'.completion.armed = s.completion.armed)
    (hcaller : (caller? seen).toList ++ s'.ringing = s.ringing)
    (htaking : (taking? seen).toList ++ s'.completion.outcome.toList =
      s.completion.outcome.toList)
    (hflag : ∀ value, flag? seen = some value → value = s.completion.fired) :
    s'.Accounts (past ++ [seen]) := by
  have hmem : ∀ {value}, value ∈ (flag? seen).toList → value = s.completion.fired :=
    fun hvalue => hflag _ (Option.mem_toList.mp hvalue)
  constructor
  · rw [hfired, first?_concat, hfirst, h.fired]
  · rw [harmed, hfired, h.armed]
  · rw [callers_concat, List.append_assoc, hcaller, first?_concat, hfirst, h.callback]
  · rw [takings_concat, List.append_assoc, htaking, first?_concat, hfirst, h.outcome]
  · rw [flags_concat]
    refine List.pairwise_append.mpr ⟨h.flags, ?_, ?_⟩
    · cases flag? seen with
      | none => exact .nil
      | some value => exact List.pairwise_singleton _ _
    · intro value hvalue answer hanswer
      rw [hmem hanswer]
      exact h.seen value hvalue
  · intro value hvalue
    rw [flags_concat] at hvalue
    rw [hfired]
    rcases List.mem_append.mp hvalue with hvalue | hvalue
    · exact h.seen value hvalue
    · exact Bool.le_of_eq (hmem hvalue)

/-- A call that has the callback to run was the first, and is the only one that has. -/
theorem Accounts.due (h : s.Accounts past) {call : Nat} (hcall : call ∈ s.ringing) :
    past.callers = [] ∧ s.ringing = [call] ∧ ∃ outcome, past.first? = some (call, outcome) := by
  have hcallback := h.callback
  cases hfirst : past.first? with
  | none =>
    rw [hfirst] at hcallback
    rw [(List.append_eq_nil_iff.mp hcallback).2] at hcall
    cases hcall
  | some attempt =>
    obtain ⟨first, outcome⟩ := attempt
    rw [hfirst] at hcallback
    rcases List.append_eq_singleton_iff.mp hcallback with ⟨hcallers, hringing⟩ | ⟨-, hringing⟩
    · rw [hringing, List.mem_singleton] at hcall
      subst hcall
      exact ⟨hcallers, hringing, outcome, rfl⟩
    · rw [hringing] at hcall
      cases hcall

/-- A call that comes to a completion that has fired leaves everything as it is. -/
theorem record_of_fired (hfired : s.completion.fired = true) (call : Nat) (outcome : Outcome) :
    s.record call outcome = s := by
  simp only [record, Completion.record, if_pos hfired, if_neg Bool.false_ne_true]

/-- The call that is the first to take the lock has the callback to run, and its outcome is there. -/
theorem Accounts.record_first (h : s.Accounts past) (hfired : s.completion.fired = false)
    (call handle : Nat) (outcome : Outcome) :
    (s.record call outcome).Accounts (past ++ [(.record call handle outcome, .done)]) := by
  have hnone : past.first? = none := by
    rw [← Option.not_isSome_iff_eq_none, ← h.fired, hfired]
    exact Bool.false_ne_true
  have hfirst : first? (past ++ [(.record call handle outcome, .done)]) = some (call, outcome) := by
    rw [first?_concat, hnone]
    rfl
  have harmed : s.completion.armed = true := by rw [h.armed, hfired, Bool.not_false]
  -- nothing was due before, and nothing has been handed over
  have hcallback := h.callback
  have houtcome := h.outcome
  rw [hnone] at hcallback houtcome
  obtain ⟨hcallers, hringing⟩ := List.append_eq_nil_iff.mp hcallback
  obtain ⟨htakings, -⟩ := List.append_eq_nil_iff.mp houtcome
  have hrecord : s.record call outcome =
      { s with
        completion := { outcome := some outcome, fired := true, armed := false }
        ringing := [call] } := by
    simp only [record, Completion.record, hfired, if_neg Bool.false_ne_true, harmed, if_true,
      hringing, List.nil_append]
  rw [hrecord]
  constructor
  · rw [hfirst]
    rfl
  · rfl
  · rw [callers_concat, hcallers, hfirst]
    rfl
  · rw [takings_concat, htakings, hfirst]
    rfl
  · rw [flags_concat]
    exact (List.append_nil _).symm ▸ h.flags
  · intro value _
    exact Bool.le_true value

/-- Without the handle nothing happens, so only what is done with it counts. -/
theorem Accounts.through (h : s.Accounts past) (event : CompletionEvent) (handle : Nat)
    {done : CompletionReport × SharedCompletion}
    (hdone : done.2.Accounts (past ++ [(event, done.1)])) :
    (s.through handle done).2.Accounts (past ++ [(event, (s.through handle done).1)]) := by
  unfold SharedCompletion.through
  split
  · exact hdone
  · have hattempt : attempt? (event, .noHandle) = none := by cases event <;> rfl
    have hcaller : caller? (event, .noHandle) = none := by cases event <;> rfl
    exact h.next (by rw [hattempt, Option.or_none]) rfl rfl (by rw [hcaller]; rfl) rfl nofun

theorem Accounts.step (h : s.Accounts past) (event : CompletionEvent) :
    (s.step event).2.Accounts (past ++ [(event, (s.step event).1)]) := by
  cases event with
  | clone handle => exact h.through _ handle (h.next Option.or_none rfl rfl rfl rfl nofun)
  | release handle => exact h.through _ handle (h.next Option.or_none rfl rfl rfl rfl nofun)
  | take handle =>
    exact h.through _ handle (h.next Option.or_none rfl rfl rfl (List.append_nil _) nofun)
  | isComplete handle =>
    refine h.through _ handle (h.next Option.or_none rfl rfl rfl rfl ?_)
    intro value hvalue
    exact (Option.some.inj hvalue).symm
  | record call handle outcome =>
    apply h.through _ handle
    cases hfired : s.completion.fired with
    | false => exact h.record_first hfired call handle outcome
    | true =>
      have hfirst : past.first?.isSome = true := h.fired ▸ hfired
      show (s.record call outcome).Accounts _
      rw [record_of_fired hfired]
      exact h.next (Option.or_of_isSome hfirst) rfl rfl rfl rfl nofun
  | callBack call =>
    simp only [SharedCompletion.step]
    split
    · next hcall =>
      obtain ⟨-, hringing, -⟩ := h.due hcall
      refine h.next Option.or_none rfl rfl ?_ rfl nofun
      rw [hringing, List.erase_cons_head]
      rfl
    · exact h.next Option.or_none rfl rfl rfl rfl nofun

theorem Accounts.run (h : s.Accounts past) (events : List CompletionEvent) :
    (s.run events).Accounts (past ++ s.history events) := by
  induction events generalizing s past with
  | nil => exact (List.append_nil _).symm ▸ h
  | cons event events ih =>
    have hrest := ih (h.step event)
    rw [List.append_assoc] at hrest
    exact hrest

end

/-! ## What a completion shows -/

/-- What holds of a completion with its past, whatever may come next. -/
structure OneShot (s : SharedCompletion) (past : CompletionHistory) : Prop where
  /-- The callback has not run, or once, in the call that was the first to take the lock. So it
  never runs if no call records an outcome. -/
  called : past.callers = [] ∨ ∃ call outcome, past.first? = some (call, outcome)
    ∧ past.callers = [call]
  /-- No outcome has been handed over, or one, that of the first call. -/
  taken : past.takings = [] ∨ ∃ call outcome, past.first? = some (call, outcome)
    ∧ past.takings = [outcome]
  /-- The callback runs when the call goes on that recorded its outcome before, and only then. -/
  calls : ∀ call, (s.step (.callBack call)).1 = .calledBack ↔
    past.callers = [] ∧ ∃ outcome, past.first? = some (call, outcome)
  /-- The outcome of the first call is there until it has been taken. -/
  takes : ∀ handle ∈ s.handles, (s.step (.take handle)).1 =
    .taken (if past.takings = [] then past.first?.map (·.2) else none)
  /-- The completion is complete as soon as a call has taken the lock. -/
  complete : ∀ handle ∈ s.handles, (s.step (.isComplete handle)).1 = .flag past.first?.isSome
  /-- Once it has been seen to be complete, it always is. -/
  flags : past.flags.Pairwise (· ≤ ·)
  /-- A call that is not the first changes nothing, whether or not the outcome has been taken. -/
  late : past.first?.isSome →
    ∀ call handle outcome, (s.step (.record call handle outcome)).2 = s
  /-- When no handle is left and no callback is due, nothing happens any more. -/
  ended : s.handles = [] → s.ringing = [] → ∀ event, (s.step event).2 = s

theorem Accounts.called (h : s.Accounts past) :
    past.callers = [] ∨ ∃ call outcome, past.first? = some (call, outcome)
      ∧ past.callers = [call] := by
  have hcallback := h.callback
  cases hfirst : past.first? with
  | none => exact .inl (List.append_eq_nil_iff.mp (hfirst ▸ hcallback)).1
  | some attempt =>
    rw [hfirst] at hcallback
    rcases List.append_eq_singleton_iff.mp hcallback with ⟨hcallers, -⟩ | ⟨hcallers, -⟩
    · exact .inl hcallers
    · exact .inr ⟨attempt.1, attempt.2, rfl, hcallers⟩

/-- The outcome of the first call has been taken, or it is still there. -/
theorem Accounts.taken (h : s.Accounts past) :
    past.takings = [] ∧ s.completion.outcome = past.first?.map (·.2)
      ∨ s.completion.outcome = none
        ∧ ∃ call outcome, past.first? = some (call, outcome) ∧ past.takings = [outcome] := by
  have houtcome := h.outcome
  cases hfirst : past.first? with
  | none =>
    rw [hfirst] at houtcome
    obtain ⟨htakings, hnone⟩ := List.append_eq_nil_iff.mp houtcome
    exact .inl ⟨htakings, Option.toList_eq_nil_iff.mp hnone⟩
  | some attempt =>
    rw [hfirst] at houtcome
    rcases List.append_eq_singleton_iff.mp houtcome with ⟨htakings, hkept⟩ | ⟨htakings, hnone⟩
    · exact .inl ⟨htakings, Option.toList_eq_singleton_iff.mp hkept⟩
    · exact .inr ⟨Option.toList_eq_nil_iff.mp hnone, attempt.1, attempt.2, rfl, htakings⟩

theorem through_of_mem {handle : Nat} (hhandle : handle ∈ s.handles)
    (done : CompletionReport × SharedCompletion) : s.through handle done = done := if_pos hhandle

theorem Accounts.oneShot (h : s.Accounts past) : s.OneShot past where
  called := h.called
  taken := h.taken.imp (·.1) (·.2)
  flags := h.flags
  calls := by
    intro call
    constructor
    · intro hcalled
      by_cases hcall : call ∈ s.ringing
      · obtain ⟨hcallers, -, hfirst⟩ := h.due hcall
        exact ⟨hcallers, hfirst⟩
      · simp only [SharedCompletion.step, if_neg hcall] at hcalled
        cases hcalled
    · rintro ⟨hcallers, outcome, hfirst⟩
      have hringing : s.ringing = [call] := by
        have hcallback := h.callback
        rwa [hcallers, hfirst] at hcallback
      have hcall : call ∈ s.ringing := hringing ▸ List.mem_singleton_self call
      simp only [SharedCompletion.step, if_pos hcall]
  takes := by
    intro handle hhandle
    simp only [SharedCompletion.step, through_of_mem hhandle, Completion.take]
    congr 1
    rcases h.taken with ⟨htakings, houtcome⟩ | ⟨houtcome, call, outcome, -, htakings⟩
    · rw [if_pos htakings, houtcome]
    · rw [if_neg (by simp [htakings]), houtcome]
  complete := by
    intro handle hhandle
    simp only [SharedCompletion.step, through_of_mem hhandle, Completion.isComplete, h.fired]
  late := by
    intro hfirst call handle outcome
    simp only [SharedCompletion.step, SharedCompletion.through]
    split
    · exact record_of_fired (h.fired.trans hfirst) call outcome
    · rfl
  ended := by
    intro hhandles hringing event
    have hhandle : ∀ handle, handle ∉ s.handles := fun handle => hhandles ▸ List.not_mem_nil
    cases event with
    | callBack call => simp only [SharedCompletion.step, hringing, List.not_mem_nil, if_false]
    | clone handle | release handle | record _ handle _ | take handle | isComplete handle =>
      simp only [SharedCompletion.step, SharedCompletion.through, if_neg (hhandle handle)]

end SharedCompletion

/-- Whatever is done with a completion through any number of handles, and in whatever order: the
callback runs at most once and only when an outcome has been recorded, at most one outcome is handed
over and it is that of the first call that took the lock, a completion that is complete stays so,
and a later call changes nothing. -/
theorem completion_one_shot (events : List CompletionEvent) :
    (SharedCompletion.fresh.run events).OneShot (SharedCompletion.fresh.history events) :=
  (SharedCompletion.accounts_fresh.run events).oneShot

-- The outcome is taken, a second call comes and both handles are released before the callback runs.
example :
    (SharedCompletion.fresh.history
      [.clone 0, .record 7 1 (.ok .done), .take 0, .record 8 0 (.error (.store "late")), .take 0,
        .callBack 8, .isComplete 1, .release 0, .release 1, .callBack 7, .callBack 7,
        .take 0]).map (·.2) =
      [.cloned 1, .done, .taken (some (.ok .done)), .done, .taken none, .done, .flag true, .done,
        .done, .calledBack, .done, .noHandle] := rfl

end DavGateway
