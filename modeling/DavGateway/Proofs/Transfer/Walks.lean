import DavGateway.Proofs.Moves
import DavGateway.Proofs.Runs
import DavGateway.Transfer.Listing

/-!
# Listings of a pool that changes

While a listing goes through the keys that it found at its beginning, other requests write and
remove objects between any two of its calls (`MemoryPool.amid`). Each object is listed as it is when
it is looked up, or left out if it is not there then; nothing else is left out, and nothing that
came later is listed (`listing_amid_changes`).
-/

namespace DavGateway

namespace MemoryPool

/-- The pool after operations of other requests, each at its time. -/
def performAll (p : MemoryPool) (operations : List (Int × Operation)) : MemoryPool :=
  operations.foldl (fun p o => (p.perform o.1 o.2).2) p

/-- Answers the calls of a session from a pool on which other requests perform `others n` before
the call with the number `n`. A call fails if there is a `fault` with its number. -/
def amid (others : Nat → List (Int × Operation)) (fault : Nat → Option Failure) (now : Int)
    (call : SessionCall) : StateM (MemoryPool × Nat) call.Answer := fun s =>
  falter fault now call (s.1.performAll (others s.2), s.2)

/-- The pool that the call with the number `n` of a session meets that changes nothing itself. -/
def met (p : MemoryPool) (others : Nat → List (Int × Operation)) (n : Nat) : MemoryPool :=
  p.performAll ((List.range (n + 1)).flatMap others)

variable {p q : MemoryPool} {others : Nat → List (Int × Operation)} {fault : Nat → Option Failure}
variable {now : Int} {call : SessionCall} {n : Nat}

theorem met_zero : p.met others 0 = p.performAll (others 0) := by
  simp [met]

theorem met_succ : p.met others (n + 1) = (p.met others n).performAll (others (n + 1)) := by
  rw [met, List.range_succ, List.flatMap_append, List.flatMap_singleton, performAll,
    List.foldl_append]
  rfl

theorem amid_of_fault (q : MemoryPool) (others : Nat → List (Int × Operation)) (now : Int)
    (call : SessionCall) {failure : Failure} (h : fault n = some failure) :
    amid others fault now call (q, n) = (call.failing failure, q.performAll (others n), n + 1) := by
  simp only [amid, falter, h]

/-- A call that changes nothing is answered from the pool that it meets. -/
theorem amid_of_none (q : MemoryPool) (others : Nat → List (Int × Operation)) (h : fault n = none)
    (hcall : ∀ q : MemoryPool, (q.answer now call).2 = q) :
    amid others fault now call (q, n) =
      (((q.performAll (others n)).answer now call).1, q.performAll (others n), n + 1) := by
  simp only [amid, falter, h, hcall]

end MemoryPool

namespace Listing

variable {fault : Nat → Option Failure} {n : Nat} {key : String} {keys : List String}

/-- A move of a listing. -/
abbrev Step := Move SessionCall SessionCall.Answer ListedObject

/-- The object under a key as it is found in a pool. -/
def found? (key : String) (q : MemoryPool) : Option ListedObject :=
  (q.stat key).toOption.map fun stat => ⟨key, stat⟩

/-- The moves with which an object is looked up in a pool, and handed out if it is there. -/
def look (key : String) (q : MemoryPool) : List Step :=
  .asked (.advance (some key)) (.ok ()) :: .asked (.operate (.stat key)) ((q.stat key).map .stat) ::
    ((found? key q).toList.map .handed)

/-- How a listing goes through keys, from the call with the number `n` on, when the call with the
number `m` meets `pools m`: which objects were looked up where, with which moves, and how it
ends. -/
inductive Walks (pools : Nat → MemoryPool) (fault : Nat → Option Failure) :
    Nat → List String → List (String × MemoryPool) → List Step → Except Failure Unit → Prop
  | finished {n : Nat} :
    Walks pools fault n [] [] [.asked (.advance none) (.ok ())] (.ok ())
  | looked {n : Nat} {key : String} {keys : List String} {looks : List (String × MemoryPool)}
    {moves : List Step} {result : Except Failure Unit}
    (hrest : Walks pools fault (n + 2) keys looks moves result) :
    Walks pools fault n (key :: keys) ((key, pools (n + 1)) :: looks)
      (look key (pools (n + 1)) ++ moves) result
  | stuck {n : Nat} {keys : List String} {failure : Failure} (h : fault n = some failure) :
    Walks pools fault n keys [] [.asked (.advance keys.head?) (.error failure)] (.error failure)
  | refused {n : Nat} {key : String} {keys : List String} {failure : Failure}
    (h : fault (n + 1) = some failure) :
    Walks pools fault n (key :: keys) []
      [.asked (.advance (some key)) (.ok ()), .asked (.operate (.stat key)) (.error failure)]
      (.error failure)

/-! ## A listing walks -/

/-- A listing ends with the step past its last key. -/
theorem visit_end : (visit []).run =
    .ask (SessionCall.advance none) fun step => match step with
      | .error failure => .done (.error failure)
      | .ok () => .done (.ok ()) := by
  show Flow.ask (SessionCall.advance none) _ = _
  congr 1
  funext step
  match step with
  | .error failure => rfl
  | .ok () => rfl

/-- A listing goes on with the next key. -/
theorem visit_run (key : String) (keys : List String) : (visit (key :: keys)).run =
    .ask (SessionCall.advance (some key)) fun step => match step with
      | .error failure => .done (.error failure)
      | .ok () => .ask (SessionCall.operate (.stat key)) fun outcome => match outcome with
        | .ok (.stat stat) => .emit ⟨key, stat⟩ (visit keys).run
        | .ok reply => .done (.error (Session.unexpected "stat" reply))
        | .error failure => if failure.isNotFound then (visit keys).run
          else .done (.error failure) := by
  show Flow.ask (SessionCall.advance (some key)) _ = _
  congr 1
  funext step
  match step with
  | .error failure => rfl
  | .ok () =>
    show Flow.ask (SessionCall.operate (.stat key)) _ = Flow.ask _ _
    congr 1
    funext outcome
    match outcome with
    | .ok .done => rfl
    | .ok (.stat stat) => rfl
    | .ok (.data data) => rfl
    | .error failure =>
      show ExceptT.run (if failure.isNotFound then _ else _) = if failure.isNotFound then _ else _
      split <;> rfl

variable {p q : MemoryPool} {others : Nat → List (Int × Operation)}

/-- An object that is not found is missing. -/
theorem isNotFound_of_stat {failure : Failure} (h : q.stat key = .error failure) :
    failure.isNotFound = true := by
  unfold MemoryPool.stat at h
  split at h
  · cases h
  · cases h
    rfl

theorem look_of_ok {stat : ObjectStat} (h : q.stat key = .ok stat) : look key q =
    [.asked (.advance (some key)) (.ok ()), .asked (.operate (.stat key)) (.ok (.stat stat)),
      .handed ⟨key, stat⟩] := by
  rw [look, found?, h]
  rfl

theorem look_of_error {failure : Failure} (h : q.stat key = .error failure) : look key q =
    [.asked (.advance (some key)) (.ok ()), .asked (.operate (.stat key)) (.error failure)] := by
  rw [look, found?, h]
  rfl

/-- A listing goes through its keys, whatever other requests do meanwhile. -/
theorem visit_walks (keys : List String) (now : Int)
    (hfault : ∀ n failure, fault n = some failure → failure.isNotFound = false)
    (hq : q.performAll (others n) = p.met others n) :
    ∃ looks, Walks (p.met others) fault n keys looks
      ((visit keys).run.moves (MemoryPool.amid others fault now) (q, n))
      ((visit keys).run.collect (MemoryPool.amid others fault now) (q, n)).1.2 := by
  induction keys generalizing q n with
  | nil =>
    cases hadvance : fault n with
    | some failure =>
      have hanswer := MemoryPool.amid_of_fault q others now (.advance none) hadvance
      rw [visit_end, Flow.moves_of_answer hanswer, Flow.collect_of_answer hanswer]
      exact ⟨[], .stuck hadvance⟩
    | none =>
      have hanswer : MemoryPool.amid others fault now (.advance none) (q, n) = _ :=
        MemoryPool.amid_of_none q others hadvance fun _ => rfl
      rw [visit_end, Flow.moves_of_answer hanswer, Flow.collect_of_answer hanswer]
      exact ⟨[], .finished⟩
  | cons key keys ih =>
    rw [visit_run]
    cases hadvance : fault n with
    | some failure =>
      have hanswer := MemoryPool.amid_of_fault q others now (.advance (some key)) hadvance
      rw [Flow.moves_of_answer hanswer, Flow.collect_of_answer hanswer]
      exact ⟨[], .stuck hadvance⟩
    | none =>
      have hanswer : MemoryPool.amid others fault now (.advance (some key)) (q, n) = _ :=
        MemoryPool.amid_of_none q others hadvance fun _ => rfl
      rw [Flow.moves_of_answer hanswer, Flow.collect_of_answer hanswer, hq]
      -- the look-up meets what others have made of the pool since
      have hmet : (p.met others n).performAll (others (n + 1)) = p.met others (n + 1) :=
        MemoryPool.met_succ.symm
      cases hstat : fault (n + 1) with
      | some failure =>
        have hanswer :=
          MemoryPool.amid_of_fault (p.met others n) others now (.operate (.stat key)) hstat
        simp only [MemoryPool.answer]
        rw [Flow.moves_of_answer hanswer, Flow.collect_of_answer hanswer]
        simp only [SessionCall.failing, hfault _ _ hstat]
        exact ⟨[], .refused hstat⟩
      | none =>
        have hanswer : MemoryPool.amid others fault now (.operate (.stat key))
            (p.met others n, n + 1) = _ :=
          MemoryPool.amid_of_none (p.met others n) others hstat fun _ => rfl
        rw [hmet] at hanswer
        obtain ⟨looks, hrest⟩ :=
          ih (n := n + 2) (q := p.met others (n + 1)) MemoryPool.met_succ.symm
        refine ⟨(key, p.met others (n + 1)) :: looks, ?_⟩
        simp only [MemoryPool.answer]
        rw [Flow.moves_of_answer hanswer, Flow.collect_of_answer hanswer]
        have hlooked : Walks (p.met others) fault n (key :: keys) _ _ _ := .looked hrest
        cases hfound : (p.met others (n + 1)).stat key with
        | ok stat =>
          rw [look_of_ok hfound] at hlooked
          simp only [MemoryPool.answer, MemoryPool.perform, hfound]
          exact hlooked
        | error failure =>
          rw [look_of_error hfound] at hlooked
          simp only [MemoryPool.answer, MemoryPool.perform, hfound, Except.map, Ending.result,
            isNotFound_of_stat hfound]
          exact hlooked

/-! ## What a walk says -/

/-- The failure of a call, unless it says only that an object is missing. -/
def setback? : Step → Option Failure
  | .asked call answer => (call.failure? answer).filter fun failure => !failure.isNotFound
  | .handed _ => none

/-- The first call that fails is the last move, and the flow ends with its failure. If none fails,
the flow ends well. -/
def FailsLast : List Step → Except Failure Unit → Prop
  | [], result => result = .ok ()
  | move :: rest, result => match setback? move with
    | some failure => rest = [] ∧ result = .error failure
    | none => FailsLast rest result

section FailingLast

variable {before after moves : List Step} {move : Step} {result : Except Failure Unit}
variable {failure : Failure}

theorem failsLast_append (h : ∀ move ∈ before, setback? move = none) :
    FailsLast (before ++ moves) result ↔ FailsLast moves result := by
  induction before with
  | nil => exact Iff.rfl
  | cons move before ih =>
    obtain ⟨hmove, hbefore⟩ := List.forall_mem_cons.mp h
    rw [List.cons_append, FailsLast, hmove]
    exact ih hbefore

theorem failsLast_single (h : setback? move = some failure) :
    FailsLast [move] (.error failure) := by
  rw [FailsLast, h]
  exact ⟨rfl, rfl⟩

theorem FailsLast.of_setback (h : FailsLast (before ++ move :: after) result)
    (hmove : setback? move = some failure) : after = [] ∧ result = .error failure := by
  induction before with
  | nil =>
    rw [List.nil_append, FailsLast, hmove] at h
    exact h
  | cons first before ih =>
    rw [List.cons_append, FailsLast] at h
    split at h
    · exact absurd h.1 (by simp)
    · exact ih h

theorem FailsLast.exists_setback (h : FailsLast moves (.error failure)) :
    ∃ before move, moves = before ++ [move] ∧ setback? move = some failure := by
  induction moves with
  | nil => cases h
  | cons move rest ih =>
    rw [FailsLast] at h
    split at h
    · next failure' hmove =>
      obtain ⟨rfl, hfailure⟩ := h
      cases hfailure
      exact ⟨[], move, rfl, hmove⟩
    · obtain ⟨before, last, rfl, hlast⟩ := ih h
      exact ⟨move :: before, last, rfl, hlast⟩

end FailingLast

theorem setback?_of_failure {call : SessionCall} {reply : call.Answer} {failure : Failure}
    (hreply : call.failure? reply = some failure) (h : failure.isNotFound = false) :
    setback? (.asked call reply) = some failure := by
  simp [setback?, hreply, h]

theorem setback?_look (key : String) (q : MemoryPool) :
    ∀ move ∈ look key q, setback? move = none := by
  intro move hmove
  cases hfound : q.stat key with
  | ok stat =>
    rw [look_of_ok hfound] at hmove
    simp only [List.mem_cons, List.not_mem_nil, or_false] at hmove
    rcases hmove with rfl | rfl | rfl <;> rfl
  | error failure =>
    rw [look_of_error hfound] at hmove
    simp only [List.mem_cons, List.not_mem_nil, or_false] at hmove
    rcases hmove with rfl | rfl
    · rfl
    · simp [setback?, SessionCall.failure?, isNotFound_of_stat hfound]

theorem items_look (key : String) (q : MemoryPool) :
    (look key q).filterMap Move.item? = (found? key q).toList := by
  cases hfound : found? key q <;> rw [look, hfound] <;> rfl

namespace Walks

variable {pools : Nat → MemoryPool} {looks : List (String × MemoryPool)} {moves : List Step}
variable {result : Except Failure Unit}

/-- The keys are looked up in their order. -/
theorem keys_prefix (h : Walks pools fault n keys looks moves result) :
    looks.map Prod.fst <+: keys := by
  induction h with
  | finished => exact List.prefix_rfl
  | looked hrest ih => exact List.cons_prefix_cons.mpr ⟨rfl, ih⟩
  | stuck _ | refused _ => exact List.nil_prefix

theorem keys_eq (h : Walks pools fault n keys looks moves (.ok ())) :
    looks.map Prod.fst = keys := by
  generalize hresult : Except.ok () = result at h
  induction h with
  | finished => rfl
  | looked hrest ih => exact congrArg (_ :: ·) (ih hresult)
  | stuck _ | refused _ => cases hresult

/-- Each object is looked up with the second of two calls. -/
theorem met (h : Walks pools fault n keys looks moves result) :
    ∀ i look, looks[i]? = some look → look.2 = pools (n + 2 * i + 1) := by
  induction h with
  | finished | stuck _ | refused _ => exact fun i look hlook => nomatch hlook
  | looked hrest ih =>
    intro i look hlook
    cases i with
    | zero =>
      cases hlook
      rfl
    | succ i =>
      rw [ih i look hlook]
      congr 1
      omega

/-- The objects are looked up one after the other, and after them nothing is handed out. A listing
that ends well has gone past its last key. -/
theorem moves_eq (h : Walks pools fault n keys looks moves result) :
    ∃ last, moves = (looks.flatMap fun l => look l.1 l.2) ++ last
      ∧ last.filterMap Move.item? = []
      ∧ (result = .ok () → last = [.asked (.advance none) (.ok ())]) := by
  induction h with
  | looked hrest ih =>
    obtain ⟨last, hmoves, hlast, hend⟩ := ih
    exact ⟨last, by rw [hmoves, List.flatMap_cons, List.append_assoc], hlast, hend⟩
  | finished => exact ⟨_, rfl, rfl, fun _ => rfl⟩
  | stuck _ | refused _ => exact ⟨_, rfl, rfl, nofun⟩

theorem failsLast (hfault : ∀ n failure, fault n = some failure → failure.isNotFound = false)
    (h : Walks pools fault n keys looks moves result) : FailsLast moves result := by
  induction h with
  | finished => exact rfl
  | looked hrest ih => exact (failsLast_append (setback?_look _ _)).mpr ih
  | stuck hfails | refused hfails =>
    exact failsLast_single (setback?_of_failure rfl (hfault _ _ hfails))

end Walks

/-! ## Whole listings -/

/-- A listing begins with the keys of the pool. -/
theorem run_run : run.run = .ask SessionCall.list fun opened => match opened with
    | .error failure => .done (.error failure)
    | .ok keys => (visit keys).run := by
  show Flow.ask SessionCall.list _ = _
  congr 1
  funext opened
  match opened with
  | .error failure => rfl
  | .ok keys => rfl

/-- An object that is there when it is looked up is found. -/
theorem found?_of_contains {q : MemoryPool} (h : q.objects.contains key = true) :
    ∃ object, found? key q = some object ∧ object.key = key := by
  obtain ⟨object, hobject⟩ := Shelf.contains_eq_true.mp h
  refine ⟨⟨key, object.stat⟩, ?_, rfl⟩
  rw [found?, MemoryPool.stat_of_some hobject]
  rfl

theorem key_of_found? {q : MemoryPool} {object : ListedObject} (h : found? key q = some object) :
    object.key = key := by
  obtain ⟨stat, -, rfl⟩ := Option.map_eq_some_iff.mp h
  rfl

/-- The keys that are handed out are some of those that are looked up. -/
theorem keys_found (looks : List (String × MemoryPool)) :
    ((looks.filterMap fun l => found? l.1 l.2).map (·.key)).Sublist (looks.map Prod.fst) := by
  induction looks with
  | nil => exact .slnil
  | cons look looks ih =>
    rw [List.filterMap_cons, List.map_cons]
    split
    · exact ih.cons _
    · next object hobject =>
      rw [List.map_cons, key_of_found? hobject]
      exact ih.cons_cons _

/-- The course of a listing: which objects it looked up in which pool, what it did, and how it
ended. Between the keys and the first object, and between two objects, others have their turn. -/
structure Course (pools : Nat → MemoryPool) (looks : List (String × MemoryPool)) (moves : List Step)
    (result : Except Failure Unit) : Prop where
  keys_prefix : looks.map Prod.fst <+: (pools 0).keys
  keys_eq : result = .ok () → looks.map Prod.fst = (pools 0).keys
  met : ∀ i look, looks[i]? = some look → look.2 = pools (2 * i + 2)
  moves_eq : ∃ opened last, last.filterMap Move.item? = []
    ∧ moves = .asked .list opened :: (looks.flatMap fun l => look l.1 l.2) ++ last
    ∧ (result = .ok () → last = [.asked (.advance none) (.ok ())])
  failsLast : FailsLast moves result

/-- A listing that cannot begin looks nothing up. -/
theorem Course.of_unopened {pools : Nat → MemoryPool} {failure : Failure}
    (h : failure.isNotFound = false) :
    Course pools [] [.asked .list (.error failure)] (.error failure) where
  keys_prefix := List.nil_prefix
  keys_eq := nofun
  met := nofun
  moves_eq := ⟨_, [], rfl, rfl, nofun⟩
  failsLast := failsLast_single (setback?_of_failure rfl h)

theorem Course.of_walks {pools : Nat → MemoryPool} {looks : List (String × MemoryPool)}
    {walked : List Step} {result : Except Failure Unit}
    (hfault : ∀ n failure, fault n = some failure → failure.isNotFound = false)
    (h : Walks pools fault 1 (pools 0).keys looks walked result) :
    Course pools looks (.asked .list (.ok (pools 0).keys) :: walked) result where
  keys_prefix := h.keys_prefix
  keys_eq := by
    rintro rfl
    exact h.keys_eq
  met := by
    intro i look hlook
    rw [h.met i look hlook]
    congr 1
    omega
  moves_eq := by
    obtain ⟨last, hwalked, hlast, hend⟩ := h.moves_eq
    exact ⟨_, last, hlast, congrArg (_ :: ·) hwalked, hend⟩
  failsLast := by
    show FailsLast walked result
    exact h.failsLast hfault

/-- Whatever other requests do meanwhile, a listing takes its course. -/
theorem run_course (hfault : ∀ n failure, fault n = some failure → failure.isNotFound = false)
    (p : MemoryPool) (others : Nat → List (Int × Operation)) (now : Int) :
    ∃ looks, Course (p.met others) looks (run.run.moves (MemoryPool.amid others fault now) (p, 0))
      (run.run.collect (MemoryPool.amid others fault now) (p, 0)).1.2 := by
  rw [run_run]
  cases hopen : fault 0 with
  | some failure =>
    have hanswer := MemoryPool.amid_of_fault p others now .list hopen
    rw [Flow.moves_of_answer hanswer, Flow.collect_of_answer hanswer]
    exact ⟨[], .of_unopened (hfault 0 failure hopen)⟩
  | none =>
    have hanswer : MemoryPool.amid others fault now .list (p, 0) = _ :=
      MemoryPool.amid_of_none p others hopen fun _ => rfl
    rw [← MemoryPool.met_zero] at hanswer
    rw [Flow.moves_of_answer hanswer, Flow.collect_of_answer hanswer]
    obtain ⟨looks, hwalks⟩ := visit_walks (p.met others 0).keys now hfault MemoryPool.met_succ.symm
    exact ⟨looks, .of_walks hfault hwalks⟩

namespace Course

variable {pools : Nat → MemoryPool} {looks : List (String × MemoryPool)} {moves : List Step}
variable {result : Except Failure Unit}

/-- What is handed out is what was found. -/
theorem items (h : Course pools looks moves result) :
    moves.filterMap Move.item? = looks.filterMap fun l => found? l.1 l.2 := by
  obtain ⟨opened, last, hlast, hmoves, -⟩ := h.moves_eq
  rw [hmoves, List.filterMap_append, hlast, List.append_nil, List.filterMap_cons_none rfl,
    List.filterMap_flatMap]
  simp only [items_look]
  exact (List.filterMap_eq_flatMap_toList _ _).symm

/-- What is there when it is looked up is handed out. -/
theorem mem_items (h : Course pools looks moves result) {l : String × MemoryPool} (hl : l ∈ looks)
    (hthere : l.2.objects.contains l.1 = true) :
    l.1 ∈ (moves.filterMap Move.item?).map (·.key) := by
  obtain ⟨object, hobject, hkey⟩ := found?_of_contains hthere
  rw [h.items]
  exact List.mem_map.mpr ⟨object, List.mem_filterMap.mpr ⟨l, hl, hobject⟩, hkey⟩

/-- What is there all the time is handed out if the listing ends well. -/
theorem mem_items_of_ok (h : Course pools looks moves (.ok ())) {key : String}
    (hthere : ∀ n, (pools n).objects.contains key = true) :
    key ∈ (moves.filterMap Move.item?).map (·.key) := by
  -- it was there at the beginning, so it was looked up
  have hkey : key ∈ looks.map Prod.fst := by
    rw [h.keys_eq rfl]
    exact Shelf.mem_keys.mpr (Shelf.contains_eq_true.mp (hthere 0))
  obtain ⟨l, hl, rfl⟩ := List.mem_map.mp hkey
  obtain ⟨i, hi⟩ := List.mem_iff_getElem?.mp hl
  exact h.mem_items hl (h.met i l hi ▸ hthere _)

end Course

end Listing

open Listing

/-- While a listing goes through a pool, other requests perform operations on it between any two
calls, and any call may fail, though not for want of an object, also the step past the last key.
What is listed are some of the keys that were there when the listing began, in their order, each
with size and time that it has when it is looked up. A key is left out only if its object is not
there at that time, so what is there all the time is listed. The first call that fails is the last,
and ends the listing with its failure, after all that was found before it has been handed out;
nothing else ends it. -/
theorem listing_amid_changes (p : MemoryPool) (others : Nat → List (Int × Operation))
    (fault : Nat → Option Failure) (now : Int)
    (hfault : ∀ n failure, fault n = some failure → failure.isNotFound = false) :
    let answer := MemoryPool.amid others fault now
    let keys := (p.met others 0).keys
    let moves := run.run.moves answer (p, 0)
    let entries := (run.run.collect answer (p, 0)).1.1
    let result := (run.run.collect answer (p, 0)).1.2
    (entries.map (·.key)).Sublist keys
      ∧ (entries.map (·.key)).Pairwise (· < ·)
      ∧ (∃ looks : List (String × MemoryPool), looks.map Prod.fst <+: keys
        ∧ (result = .ok () → looks.map Prod.fst = keys)
        ∧ (∀ i look, looks[i]? = some look → look.2 = p.met others (2 * i + 2))
        ∧ entries = looks.filterMap (fun l => found? l.1 l.2)
        ∧ (∀ l ∈ looks, l.1 ∉ entries.map (·.key) → l.2.objects.get? l.1 = none)
        ∧ ∃ opened last, last.filterMap Move.item? = []
          ∧ moves = .asked .list opened :: (looks.flatMap fun l => look l.1 l.2) ++ last
          ∧ (result = .ok () → last = [.asked (.advance none) (.ok ())]))
      ∧ (result = .ok () → ∀ key, (∀ n, (p.met others n).objects.contains key = true) →
        key ∈ entries.map (·.key))
      ∧ (∀ before move after failure, moves = before ++ move :: after →
        setback? move = some failure →
        after = [] ∧ result = .error failure ∧ before.filterMap Move.item? = entries)
      ∧ (∀ failure, result = .error failure →
        ∃ before move, moves = before ++ [move] ∧ setback? move = some failure) := by
  intro answer keys moves entries result
  obtain ⟨looks, hcourse⟩ : ∃ looks, Course (p.met others) looks moves result :=
    run_course hfault p others now
  have hitems : moves.filterMap Move.item? = entries := Flow.items_moves _ _
  have hentries : entries = looks.filterMap fun l => found? l.1 l.2 := hitems ▸ hcourse.items
  have hsublist : (entries.map (·.key)).Sublist keys :=
    hentries ▸ (keys_found looks).trans hcourse.keys_prefix.sublist
  have hascending : keys.Pairwise (· < ·) := Shelf.keys_pairwise
  refine ⟨hsublist, hascending.sublist hsublist, ⟨looks, hcourse.keys_prefix, hcourse.keys_eq,
    hcourse.met, hentries, ?_, hcourse.moves_eq⟩, ?_, ?_, ?_⟩
  · intro l hl habsent
    by_contra hpresent
    exact habsent (hitems ▸ hcourse.mem_items hl (Option.isSome_iff_ne_none.mpr hpresent))
  · intro hresult key hthere
    exact hitems ▸ (hresult ▸ hcourse).mem_items_of_ok hthere
  · intro before move after failure hsplit hmove
    obtain ⟨rfl, hresult⟩ := (hsplit ▸ hcourse.failsLast).of_setback hmove
    refine ⟨rfl, hresult, ?_⟩
    rw [← hitems, hsplit, List.filterMap_append]
    cases move with
    | asked call answer => exact (List.append_nil _).symm
    | handed item => cases hmove
  · intro failure hresult
    exact (hresult ▸ hcourse.failsLast).exists_setback

/-- A pool with three objects. -/
def poolOfThree : MemoryPool where
  objects := (((default : Shelf MemoryObject).set "a" ⟨[1], 0⟩).set "b" ⟨[2, 2], 0⟩).set "c"
    ⟨[3], 0⟩

/-- While the first object is looked up, the second is removed and a fourth is made; the first is
written later. -/
def busyOthers : Nat → List (Int × Operation)
  | 2 => [(5, .remove "b"), (6, .write "d" [4] 0)]
  | 3 => [(7, .write "a" [1, 1] 1)]
  | _ => []

/-- One call is not answered in time. -/
def lateAnswer (late n : Nat) : Option Failure :=
  if n = late then some (.timedOut (.ofSeconds 4)) else none

/-- The last look-up is late, or nothing is, or the step past the last key. -/
theorem listing_amid_changes_late :
    (∀ n failure, lateAnswer 6 n = some failure → failure.isNotFound = false)
      ∧ (run.run.collect (MemoryPool.amid busyOthers (lateAnswer 6) 9) (poolOfThree, 0)).1 =
        ([⟨"a", ⟨1, 0⟩⟩], .error (.timedOut (.ofSeconds 4)))
      ∧ (run.run.collect (MemoryPool.amid busyOthers (fun _ => none) 9) (poolOfThree, 0)).1 =
        ([⟨"a", ⟨1, 0⟩⟩, ⟨"c", ⟨1, 0⟩⟩], .ok ())
      ∧ (run.run.collect (MemoryPool.amid busyOthers (lateAnswer 7) 9) (poolOfThree, 0)).1 =
        ([⟨"a", ⟨1, 0⟩⟩, ⟨"c", ⟨1, 0⟩⟩], .error (.timedOut (.ofSeconds 4)))
      ∧ ∃ before move,
        run.run.moves (MemoryPool.amid busyOthers (lateAnswer 6) 9) (poolOfThree, 0) =
          before ++ [move] ∧ setback? move = some (.timedOut (.ofSeconds 4)) := by
  have hfault : ∀ n failure, lateAnswer 6 n = some failure → failure.isNotFound = false := by
    intro n failure h
    unfold lateAnswer at h
    split at h
    · cases h
      rfl
    · cases h
  refine ⟨hfault, by decide +kernel, by decide +kernel, by decide +kernel, ?_⟩
  exact (listing_amid_changes poolOfThree busyOthers (lateAnswer 6) 9 hfault).2.2.2.2.2 _
    (by decide +kernel)

end DavGateway
