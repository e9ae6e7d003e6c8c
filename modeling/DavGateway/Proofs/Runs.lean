import DavGateway.Proofs.Session
import Mathlib.Logic.Function.Basic

/-!
# Runs and their calls

What a flow asks in a run, and what it is answered (`Flow.events`). A store is orderly in a call if
the call has its effect on the objects when it is carried out, and none when it fails
(`SessionCall.Orderly`). A pool in memory is orderly in all calls but the writes that no memory can
hold, and stays so when some calls fail before they reach it (`MemoryPool.falter`).
-/

namespace DavGateway

namespace Flow

variable {C : Type} {R : C → Type} {α γ σ : Type} {β : Type}

instance : LawfulMonad (Flow C R β) :=
  .mk' _ (fun x => x.bind_done) (fun _ _ => rfl) fun x f g => x.bind_assoc f g

variable {answer : (call : C) → StateM σ (R call)} {x : Flow C R Empty α}
  {f : α → Flow C R Empty γ} {s : σ}

/-- The calls that a flow makes in a run, in their order, and what each of them is answered. -/
def events (answer : (call : C) → StateM σ (R call)) : Flow C R Empty α → σ → List (Sigma R)
  | .done _, _ => []
  | .ask call resume, s =>
    ⟨call, (answer call s).1⟩ :: (resume (answer call s).1).events answer (answer call s).2

variable {good : C → σ → Prop}

/-! A call that is answered leaves the rest of its flow to be run. -/

section Asking

variable {call : C} {resume : R call → Flow C R Empty α} {reply : R call} {s' : σ}

theorem run_of_answer (h : answer call s = (reply, s')) :
    (ask call resume).run answer s = (resume reply).run answer s' := by
  show (resume (answer call s).1).run answer (answer call s).2 = _
  rw [h]

theorem events_of_answer (h : answer call s = (reply, s')) :
    (ask call resume).events answer s = ⟨call, reply⟩ :: (resume reply).events answer s' := by
  rw [events, h]

theorem along_of_answer (h : answer call s = (reply, s')) :
    (ask call resume).Along good answer s ↔
      good call s ∧ (resume reply).Along good answer s' := by
  rw [Along, h]

end Asking

theorem Only.along {P : C → Prop} (hx : x.Only P) (h : ∀ call s, P call → good call s) :
    x.Along good answer s := by
  induction x generalizing s with
  | done a => trivial
  | emit item rest ih => exact item.elim
  | ask call resume ih => exact ⟨h call s hx.1, ih _ (hx.2 _)⟩

/-- What holds of each call that is answered in some way holds along a run in which all are. -/
theorem along_of_events {Q : Sigma R → Prop} (hx : ∀ event ∈ x.events answer s, Q event)
    (h : ∀ call s, Q ⟨call, (answer call s).1⟩ → good call s) : x.Along good answer s := by
  induction x generalizing s with
  | done a => trivial
  | emit item rest ih => exact item.elim
  | ask call resume ih =>
    obtain ⟨hfirst, hrest⟩ := List.forall_mem_cons.mp hx
    exact ⟨h call s hfirst, ih _ hrest⟩

end Flow

/-! ## Stores -/

namespace SessionCall

variable {σ : Type} {call : SessionCall}

/-- The failure of a call of a session. -/
def failure? : (call : SessionCall) → call.Answer → Option Failure
  | .operate _, .error failure | .list, .error failure | .advance _, .error failure => some failure
  | .operate _, .ok _ | .list, .ok _ | .advance _, .ok _ => none

/-- What a call that fails is answered. -/
def failing (failure : Failure) : (call : SessionCall) → call.Answer
  | .operate _ | .list | .advance _ => .error failure

@[simp] theorem failure?_failing (failure : Failure) :
    call.failure? (call.failing failure) = some failure := by
  cases call <;> rfl

/-- What a call makes of the objects when it is carried out. -/
def effect (objects : String → Option Bytes) : SessionCall → String → Option Bytes
  | .operate (.write key data offset) =>
    Function.update objects key (some (((objects key).getD []).overlay offset data))
  | .operate (.remove key) => Function.update objects key none
  | .operate (.stat _) | .operate (.read _ _ _) | .list | .advance _ => objects

/-- The call has its effect on the objects if it is carried out, and none if it fails. -/
structure Orderly (objects : σ → String → Option Bytes)
    (answer : (call : SessionCall) → StateM σ call.Answer) (call : SessionCall) (s : σ) : Prop where
  carriedOut : call.failure? (answer call s).1 = none →
    objects (answer call s).2 = call.effect (objects s)
  failed : ∀ failure, call.failure? (answer call s).1 = some failure →
    objects (answer call s).2 = objects s

end SessionCall

/-- All calls that a flow makes in a run succeed. -/
def Flow.Succeeds {α σ : Type} (answer : (call : SessionCall) → StateM σ call.Answer)
    (x : SessionFlow Empty α) (s : σ) : Prop :=
  ∀ event ∈ x.events answer s, event.1.failure? event.2 = none

namespace MemoryPool

variable {p : MemoryPool} {now : Int} {call : SessionCall}

/-- A call that a pool carries out has its effect. -/
theorem content?_answer (h : call.failure? (p.answer now call).1 = none) :
    (p.answer now call).2.content? = call.effect p.content? := by
  cases call with
  | list | advance next => rfl
  | operate operation =>
    cases operation with
    | stat key | read key length offset => rfl
    | remove key =>
      show (p.remove key).2.content? = _
      unfold remove
      split
      · exact content?_erase key
      · next habsent =>
        simp only [answer, perform, remove, if_neg habsent] at h
        cases h
    | write key data offset =>
      by_cases hkey : Names.checkKey key = .ok ()
      · by_cases hsmall : offset + data.length < Text.signedLimit
        · simp only [answer, perform, write_of_small hkey hsmall]
          exact content?_set key _
        · -- then the write breaks off
          simp only [answer, perform, write_of_large now hkey (Nat.le_of_not_lt hsmall)] at h
          cases h
      · obtain ⟨failure, hfailure⟩ : ∃ failure, Names.checkKey key = .error failure := by
          cases hcheck : Names.checkKey key with
          | ok => exact absurd hcheck hkey
          | error failure => exact ⟨failure, rfl⟩
        simp only [answer, perform, write, hfailure] at h
        cases h

/-- Answers the calls of a session from a pool that nobody else changes. -/
def serve (now : Int) (call : SessionCall) : StateM MemoryPool call.Answer :=
  fun p => p.answer now call

/-- Along a run in which all calls succeed, a pool in memory is orderly. -/
theorem orderly_of_succeeds {α : Type} {x : SessionFlow Empty α} (h : x.Succeeds (serve now) p) :
    x.Along (SessionCall.Orderly content? (serve now)) (serve now) p := by
  refine Flow.along_of_events h fun call p hnone => ⟨fun _ => content?_answer hnone, ?_⟩
  intro failure hsome
  rw [hnone] at hsome
  cases hsome

/-- A small call that fails leaves the pool as it is. -/
theorem answer_snd_of_failed {failure : Failure} (hsmall : call.Small)
    (h : call.failure? (p.answer now call).1 = some failure) : (p.answer now call).2 = p := by
  cases call with
  | list | advance next => rfl
  | operate operation =>
    cases operation with
    | stat key | read key length offset => rfl
    | remove key =>
      show (p.remove key).2 = p
      unfold remove
      split
      · next hpresent =>
        simp only [answer, perform, remove, if_pos hpresent] at h
        cases h
      · rfl
    | write key data offset =>
      show (p.write now key data offset).2 = p
      cases hkey : Names.checkKey key with
      | error failure => simp only [write, hkey]
      | ok =>
        simp only [answer, perform, write_of_small hkey hsmall] at h
        cases h

/-- The same with faults: the calls are counted, and a call does not reach the pool if there is a
`fault` with its number. -/
def falter (fault : Nat → Option Failure) (now : Int) (call : SessionCall) :
    StateM (MemoryPool × Nat) call.Answer := fun s =>
  match fault s.2 with
  | some failure => (call.failing failure, s.1, s.2 + 1)
  | none => ((s.1.answer now call).1, (s.1.answer now call).2, s.2 + 1)

/-- Whichever calls fail, a pool in memory is orderly in small calls. -/
theorem orderly_falter (fault : Nat → Option Failure) (now : Int) (s : MemoryPool × Nat)
    (hsmall : call.Small) : call.Orderly (fun s => s.1.content?) (falter fault now) s := by
  cases hfault : fault s.2 with
  | some failure =>
    have hfalter : falter fault now call s = (call.failing failure, s.1, s.2 + 1) := by
      simp only [falter, hfault]
    constructor
    · intro hnone
      rw [hfalter, SessionCall.failure?_failing] at hnone
      cases hnone
    · intro _ _
      rw [hfalter]
  | none =>
    have hfalter : falter fault now call s =
        ((s.1.answer now call).1, (s.1.answer now call).2, s.2 + 1) := by
      simp only [falter, hfault]
    constructor
    · intro hnone
      rw [hfalter] at hnone ⊢
      exact content?_answer hnone
    · intro failure hsome
      rw [hfalter] at hsome ⊢
      exact congrArg content? (answer_snd_of_failed hsmall hsome)

end MemoryPool

end DavGateway
