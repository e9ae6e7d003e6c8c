import DavGateway.Flow
import Mathlib.Data.List.Forall2

/-!
# Which calls a flow makes

`Flow.Only P` says that every call a flow can make, whatever its calls are answered, satisfies `P`.
`Flow.Obeys` says more: a protocol keeps track of where a flow stands, and tells which calls it may
make there and which answers can come. What an environment keeps while it answers such calls, it
keeps over the whole flow. `Flow.replay` plays a flow back with answers that were noted.
-/

namespace DavGateway.Flow

variable {C : Type} {R : C → Type} {β γ α δ : Type} {P Q : C → Prop}

/-- Every call that the flow can make satisfies `P`. -/
def Only (P : C → Prop) : Flow C R β α → Prop
  | .done _ => True
  | .emit _ rest => rest.Only P
  | .ask call resume => P call ∧ ∀ answer, (resume answer).Only P

@[simp] theorem only_done (result : α) : (Flow.done result : Flow C R β α).Only P := trivial

@[simp] theorem only_emit {item : β} {rest : Flow C R β α} :
    (Flow.emit item rest).Only P ↔ rest.Only P := Iff.rfl

@[simp] theorem only_ask {call : C} {resume : R call → Flow C R β α} :
    (Flow.ask call resume).Only P ↔ P call ∧ ∀ answer, (resume answer).Only P := Iff.rfl

theorem Only.bind {x : Flow C R β α} {f : α → Flow C R β δ} (hx : x.Only P)
    (hf : ∀ a, (f a).Only P) : (x.bind f).Only P := by
  induction x with
  | done a => exact hf a
  | emit item rest ih => exact ih hx
  | ask call resume ih => exact ⟨hx.1, fun answer => ih answer (hx.2 answer)⟩

theorem Only.mapItems {x : Flow C R β α} (f : β → γ) (hx : x.Only P) :
    (x.mapItems f).Only P := by
  induction x with
  | done a => trivial
  | emit item rest ih => exact ih hx
  | ask call resume ih => exact ⟨hx.1, fun answer => ih answer (hx.2 answer)⟩

theorem Only.mono {x : Flow C R β α} (hx : x.Only P) (h : ∀ call, P call → Q call) : x.Only Q := by
  induction x with
  | done a => trivial
  | emit item rest ih => exact ih hx
  | ask call resume ih => exact ⟨h call hx.1, fun answer => ih answer (hx.2 answer)⟩

theorem only_of_forall (h : ∀ call, P call) (x : Flow C R β α) : x.Only P := by
  induction x with
  | done a => trivial
  | emit item rest ih => exact ih
  | ask call resume ih => exact ⟨h call, ih⟩

/-! ## Protocols -/

/-- Which calls may be made in a place, which answers can come, and to which place they lead. -/
structure Protocol (C : Type) (R : C → Type) (S : Type) where
  may : S → C → Prop
  can : S → (call : C) → R call → Prop
  next : S → (call : C) → R call → S

variable {S : Type} {p : Protocol C R S} {place : S}

/-- From its place on, the flow makes only calls that it may make, as long as its answers are ones
that can come, and it ends with a result and in a place of which `post` holds. -/
def Obeys (p : Protocol C R S) (post : S → α → Prop) : S → Flow C R β α → Prop
  | place, .done result => post place result
  | place, .emit _ rest => rest.Obeys p post place
  | place, .ask call resume =>
    p.may place call ∧ ∀ answer, p.can place call answer →
      (resume answer).Obeys p post (p.next place call answer)

theorem Obeys.bind {mid : S → α → Prop} {post : S → δ → Prop} {x : Flow C R β α}
    {f : α → Flow C R β δ} (hx : x.Obeys p mid place)
    (hf : ∀ place a, mid place a → (f a).Obeys p post place) : (x.bind f).Obeys p post place := by
  induction x generalizing place with
  | done a => exact hf place a hx
  | emit item rest ih => exact ih hx
  | ask call resume ih => exact ⟨hx.1, fun answer hcan => ih answer (hx.2 answer hcan)⟩

theorem Obeys.mono {post post' : S → α → Prop} {x : Flow C R β α} (hx : x.Obeys p post place)
    (h : ∀ place a, post place a → post' place a) : x.Obeys p post' place := by
  induction x generalizing place with
  | done a => exact h place a hx
  | emit item rest ih => exact ih hx
  | ask call resume ih => exact ⟨hx.1, fun answer hcan => ih answer (hx.2 answer hcan)⟩

/-- A flow that obeys a protocol makes only such calls as the protocol allows in the places that it
reaches, where every answer can come. -/
theorem Obeys.only {post : S → α → Prop} {inv : S → Prop} {x : Flow C R β α}
    (hx : x.Obeys p post place) (hplace : inv place)
    (hmay : ∀ {place call}, p.may place call → inv place →
      P call ∧ ∀ answer, p.can place call answer ∧ inv (p.next place call answer)) : x.Only P := by
  induction x generalizing place with
  | done a => trivial
  | emit item rest ih => exact ih hx hplace
  | ask call resume ih =>
    obtain ⟨hcall, hanswers⟩ := hmay hx.1 hplace
    refine ⟨hcall, fun answer => ?_⟩
    obtain ⟨hcan, hnext⟩ := hanswers answer
    exact ih answer (hx.2 answer hcan) hnext

/-- A flow that can fail obeys a protocol: `ok` holds of the place in which it ends well and of its
result, `failed` of the place in which it fails and of the failure. -/
def Follows {ε : Type} (p : Protocol C R S) (ok : S → α → Prop) (failed : S → ε → Prop) (place : S)
    (x : ExceptT ε (Flow C R β) α) : Prop :=
  x.run.Obeys p (fun place result => match result with
    | .ok a => ok place a
    | .error failure => failed place failure) place

section Failing

variable {ε : Type} {ok : S → α → Prop} {ok' : S → δ → Prop} {failed : S → ε → Prop}
variable {x : ExceptT ε (Flow C R β) α}

theorem Follows.bind {f : α → ExceptT ε (Flow C R β) δ} (hx : Follows p ok failed place x)
    (hf : ∀ place a, ok place a → Follows p ok' failed place (f a)) :
    Follows p ok' failed place (x >>= f) := by
  unfold Follows
  rw [ExceptT.run_bind]
  refine Obeys.bind hx fun place result hresult => ?_
  cases result with
  | ok a => exact hf place a hresult
  | error failure => exact hresult

theorem Follows.mono {ok₁ : S → α → Prop} {failed₁ : S → ε → Prop}
    (hx : Follows p ok₁ failed₁ place x) (hok : ∀ place a, ok₁ place a → ok place a)
    (hfailed : ∀ place failure, failed₁ place failure → failed place failure) :
    Follows p ok failed place x := by
  refine Obeys.mono hx fun place result hresult => ?_
  cases result with
  | ok a => exact hok place a hresult
  | error failure => exact hfailed place failure hresult

theorem follows_pure {a : α} (h : ok place a) :
    Follows p ok failed place (pure a : ExceptT ε (Flow C R β) α) := h

theorem follows_throw {failure : ε} (h : failed place failure) :
    Follows p ok failed place (throw failure : ExceptT ε (Flow C R β) α) := h

end Failing

/-- From its place on, the flow makes only calls that it may make, as long as its answers are ones
that can come. `post` holds of the place in which it ends, of the items that it hands out on its way
and of its result. -/
def Brings (p : Protocol C R S) : (S → List β → α → Prop) → S → Flow C R β α → Prop
  | post, place, .done result => post place [] result
  | post, place, .emit item rest =>
    rest.Brings p (fun place items result => post place (item :: items) result) place
  | post, place, .ask call resume =>
    p.may place call ∧ ∀ answer, p.can place call answer →
      (resume answer).Brings p post (p.next place call answer)

theorem Brings.mono {post post' : S → List β → α → Prop} {x : Flow C R β α}
    (hx : x.Brings p post place) (h : ∀ place items a, post place items a → post' place items a) :
    x.Brings p post' place := by
  induction x generalizing place post post' with
  | done a => exact h place [] a hx
  | emit item rest ih => exact ih hx fun place items a => h place (item :: items) a
  | ask call resume ih => exact ⟨hx.1, fun answer hcan => ih answer (hx.2 answer hcan) h⟩

theorem Brings.bind {mid : S → List β → α → Prop} {post : S → List β → δ → Prop}
    {x : Flow C R β α} {f : α → Flow C R β δ} (hx : x.Brings p mid place)
    (hf : ∀ place items a, mid place items a →
      (f a).Brings p (fun place items' b => post place (items ++ items') b) place) :
    (x.bind f).Brings p post place := by
  induction x generalizing place mid post with
  | done a => exact hf place [] a hx
  | emit item rest ih => exact ih hx fun place items a h => hf place (item :: items) a h
  | ask call resume ih => exact ⟨hx.1, fun answer hcan => ih answer (hx.2 answer hcan) hf⟩

/-! ## What an environment keeps -/

section Keeping

variable {σ : Type}

/-- A flow that begins with a call goes on with the answer, or is left there without one. -/
theorem run_ask {answer : (call : C) → OptionT (StateM σ) (R call)} {call : C}
    {resume : R call → Flow C R Empty α} {s : σ} :
    ((ask call resume).run answer).run s =
      match (answer call).run s with
      | (some reply, s') => ((resume reply).run answer).run s'
      | (none, s') => (none, s') := by
  have hbind : ((ask call resume).run answer).run s = ((answer call).run >>= fun reply? =>
      Option.elim reply? (pure none) fun reply => ((resume reply).run answer).run) s := by
    show ((answer call) >>= fun reply => (resume reply).run answer).run s = _
    rw [OptionT.run_bind]
    rfl
  rw [hbind]
  show (match (answer call).run s with
    | (reply?, s') => (Option.elim reply? (pure none) fun reply => ((resume reply).run answer).run :
      StateM σ (Option α)) s') = _
  cases (answer call).run s with
  | mk reply? s' => cases reply? <;> rfl

/-- What the environment does with the calls that may be made: it keeps `inv`, which depends on the
place, and gives answers that can come. A call that it leaves without an answer leaves `stuck`. -/
structure Protocol.UpheldBy (p : Protocol C R S) (answer : (call : C) → OptionT (StateM σ) (R call))
    (inv : S → σ → Prop) (stuck : σ → Prop) : Prop where
  answered : ∀ {place call s reply s'}, p.may place call → inv place s →
    (answer call).run s = (some reply, s') →
      p.can place call reply ∧ inv (p.next place call reply) s'
  unanswered : ∀ {place call s s'}, p.may place call → inv place s →
    (answer call).run s = (none, s') → stuck s'

/-- A flow that obeys a protocol is run with an environment that upholds it. -/
theorem Obeys.run {post : S → α → Prop} {inv : S → σ → Prop} {stuck : σ → Prop}
    {answer : (call : C) → OptionT (StateM σ) (R call)} {x : Flow C R Empty α}
    (hx : x.Obeys p post place) (hp : p.UpheldBy answer inv stuck) {s s' : σ}
    (hs : inv place s) :
    (∀ {result}, (x.run answer).run s = (some result, s') →
        ∃ place', post place' result ∧ inv place' s')
      ∧ ((x.run answer).run s = (none, s') → stuck s') := by
  -- induction on the flow: each answer leads to the place in which the rest of it stands
  induction x generalizing place s with
  | done result =>
    refine ⟨fun hrun => ?_, nofun⟩
    cases hrun
    exact ⟨place, hx, hs⟩
  | emit item rest ih => exact item.elim
  | ask call resume ih =>
    rw [run_ask]
    cases hreply : (answer call).run s with
    | mk reply? s₁ =>
      cases reply? with
      | none => exact ⟨nofun, fun hrun => Prod.mk.inj hrun |>.2 ▸ hp.unanswered hx.1 hs hreply⟩
      | some reply =>
        rcases hp.answered hx.1 hs hreply with ⟨hcan, hnext⟩
        exact ih reply (hx.2 reply hcan) hnext

variable {inv : σ → Prop} {answer : (call : C) → StateM σ (R call)} {x : Flow C R β α} {s : σ}

theorem Only.run {x : Flow C R Empty α} (hx : x.Only P)
    (hanswer : ∀ call s, P call → inv s → inv (answer call s).2) (hs : inv s) :
    inv (x.run answer s).2 := by
  induction x generalizing s with
  | done a => exact hs
  | emit item rest ih => exact item.elim
  | ask call resume ih => exact ih _ (hx.2 _) (hanswer call s hx.1 hs)

theorem Only.collect (hx : x.Only P)
    (hanswer : ∀ call s, P call → inv s → inv (answer call s).2) (hs : inv s) :
    inv (x.collect answer s).2 := by
  induction x generalizing s with
  | done a => exact hs
  | emit item rest ih => exact ih hx hs
  | ask call resume ih => exact ih _ (hx.2 _) (hanswer call s hx.1 hs)

theorem Only.collectUpTo (hx : x.Only P)
    (hanswer : ∀ call s, P call → inv s → inv (answer call s).2) (limit : Nat) (hs : inv s) :
    inv (x.collectUpTo answer limit s).2 := by
  induction x generalizing s limit with
  | done a => cases limit <;> exact hs
  | emit item rest ih =>
    cases limit with
    | zero => exact hs
    | succ limit => exact ih hx limit hs
  | ask call resume ih =>
    cases limit with
    | zero => exact hs
    | succ limit => exact ih _ (hx.2 _) (limit + 1) (hanswer call s hx.1 hs)

/-- A flow is run to its end by an environment that gives answers that can come. -/
theorem Brings.collect {post : S → List β → α → Prop} {inv : S → σ → Prop} {x : Flow C R β α}
    {s : σ} (hx : x.Brings p post place)
    (hanswer : ∀ place call s, p.may place call → inv place s →
      p.can place call (answer call s).1
        ∧ inv (p.next place call (answer call s).1) (answer call s).2)
    (hs : inv place s) :
    ∃ place', post place' (x.collect answer s).1.1 (x.collect answer s).1.2
      ∧ inv place' (x.collect answer s).2 := by
  induction x generalizing place post s with
  | done a => exact ⟨place, hx, hs⟩
  | emit item rest ih => exact ih hx hs
  | ask call resume ih =>
    obtain ⟨hcan, hnext⟩ := hanswer place call s hx.1 hs
    exact ih _ (hx.2 _ hcan) hnext

end Keeping

/-! ## Calls answered without the environment -/

section Idle

variable {σ : Type} {answer : (call : C) → StateM σ (R call)}

/-- A flow whose calls are answered without the environment hands out the same wherever it is. -/
theorem collect_idle (h : ∀ call, ∃ reply, ∀ s, answer call s = (reply, s)) (x : Flow C R β α) :
    ∃ collected, ∀ s, x.collect answer s = (collected, s) := by
  induction x with
  | done a => exact ⟨([], a), fun s => rfl⟩
  | emit item rest ih =>
    obtain ⟨collected, hrest⟩ := ih
    refine ⟨(item :: collected.1, collected.2), fun s => ?_⟩
    show (match rest.collect answer s with
      | (collected, s) => ((item :: collected.1, collected.2), s)) = _
    rw [hrest]
  | ask call resume ih =>
    obtain ⟨reply, hreply⟩ := h call
    obtain ⟨collected, hrest⟩ := ih reply
    refine ⟨collected, fun s => ?_⟩
    show (match answer call s with | (reply, s) => (resume reply).collect answer s) = _
    rw [hreply]
    exact hrest s

theorem collectUpTo_idle (h : ∀ call, ∃ reply, ∀ s, answer call s = (reply, s))
    (x : Flow C R β α) (limit : Nat) :
    ∃ collected, ∀ s, x.collectUpTo answer limit s = (collected, s) := by
  induction x generalizing limit with
  | done a =>
    cases limit with
    | zero => exact ⟨([], none), fun s => rfl⟩
    | succ limit => exact ⟨([], some a), fun s => rfl⟩
  | emit item rest ih =>
    cases limit with
    | zero => exact ⟨([], none), fun s => rfl⟩
    | succ limit =>
      obtain ⟨collected, hrest⟩ := ih limit
      refine ⟨(item :: collected.1, collected.2), fun s => ?_⟩
      show (match rest.collectUpTo answer limit s with
        | (collected, s) => ((item :: collected.1, collected.2), s)) = _
      rw [hrest]
  | ask call resume ih =>
    cases limit with
    | zero => exact ⟨([], none), fun s => rfl⟩
    | succ limit =>
      obtain ⟨reply, hreply⟩ := h call
      obtain ⟨collected, hrest⟩ := ih reply (limit + 1)
      refine ⟨collected, fun s => ?_⟩
      show (match answer call s with
        | (reply, s) => (resume reply).collectUpTo answer (limit + 1) s) = _
      rw [hreply]
      exact hrest s

end Idle

/-! ## Flows played back -/

section PlayingBack

variable [DecidableEq C]

/-- The result of a flow whose calls are answered as it is noted, if it makes just these calls. -/
def replay : Flow C R Empty α → List (Sigma R) → Option α
  | .done result, [] => some result
  | .ask call resume, ⟨noted, answer⟩ :: rest =>
    if h : noted = call then (resume (h ▸ answer)).replay rest else none
  | .done _, _ :: _ | .ask _ _, [] => none

variable {x : Flow C R Empty α} {result : α} {events : List (Sigma R)}

theorem replay_ask {call : C} {resume : R call → Flow C R Empty α}
    (h : (ask call resume).replay events = some result) :
    ∃ answer rest, events = ⟨call, answer⟩ :: rest ∧ (resume answer).replay rest = some result := by
  match events, h with
  | ⟨noted, answer⟩ :: rest, h =>
    unfold replay at h
    split at h
    · next hnoted =>
      subst hnoted
      exact ⟨answer, rest, rfl, h⟩
    · cases h

/-- The place to which calls lead with their answers. -/
def Protocol.after (p : Protocol C R S) (place : S) (events : List (Sigma R)) : S :=
  events.foldl (fun place event => p.next place event.1 event.2) place

/-- A flow that obeys a protocol, whatever its calls are answered, makes each call in a place where
it may. -/
theorem Obeys.replay {post : S → α → Prop} (hx : x.Obeys p post place)
    (hcan : ∀ place call answer, p.can place call answer) (h : x.replay events = some result) :
    post (p.after place events) result ∧ ∀ before event later, events = before ++ event :: later →
      p.may (p.after place before) event.1 := by
  induction x generalizing place events with
  | done a =>
    cases events with
    | nil =>
      cases h
      exact ⟨hx, fun before event later hevents => absurd hevents (by simp)⟩
    | cons event rest => cases h
  | emit item rest ih => exact item.elim
  | ask call resume ih =>
    obtain ⟨answer, rest, rfl, hrest⟩ := replay_ask h
    obtain ⟨hpost, hmay⟩ := ih answer (hx.2 answer (hcan place call answer)) hrest
    refine ⟨hpost, fun before event later hevents => ?_⟩
    cases before with
    | nil =>
      cases hevents
      exact hx.1
    | cons first before =>
      cases hevents
      exact hmay before event later rfl

/-- From one state to another, the environment answers calls as it is noted. -/
inductive Plays {σ : Type} (answer : (call : C) → OptionT (StateM σ) (R call)) :
    σ → List (Sigma R) → σ → Prop
  | nil (s : σ) : Plays answer s [] s
  | cons {call : C} {reply : R call} {s s₁ s' : σ} {rest : List (Sigma R)}
    (h : (answer call).run s = (some reply, s₁)) (hrest : Plays answer s₁ rest s') :
    Plays answer s (⟨call, reply⟩ :: rest) s'

theorem replay_of_answer {call : C} {reply : R call} {resume : R call → Flow C R Empty α} :
    (ask call resume).replay (⟨call, reply⟩ :: events) = (resume reply).replay events := by
  rw [replay, dif_pos rfl]

/-- What an environment answers in a run of a flow plays it back. -/
theorem exists_replay {σ : Type} {answer : (call : C) → OptionT (StateM σ) (R call)} {s s' : σ}
    (h : (x.run answer).run s = (some result, s')) :
    ∃ events, Plays answer s events s' ∧ x.replay events = some result := by
  induction x generalizing s with
  | done a =>
    cases h
    exact ⟨[], .nil _, rfl⟩
  | emit item rest ih => exact item.elim
  | ask call resume ih =>
    rw [run_ask] at h
    cases hreply : (answer call).run s with
    | mk reply? s₁ =>
      rw [hreply] at h
      cases reply? with
      | none => cases h
      | some reply =>
        obtain ⟨events, hplays, hevents⟩ := ih reply h
        exact ⟨⟨call, reply⟩ :: events, .cons hreply hplays, replay_of_answer.trans hevents⟩

/-- An environment that answers as it is noted brings a flow to the result that was played back. -/
theorem run_of_replay {σ : Type} {answer : (call : C) → OptionT (StateM σ) (R call)} {s s' : σ}
    (hplays : Plays answer s events s') (h : x.replay events = some result) :
    (x.run answer).run s = (some result, s') := by
  induction x generalizing s events with
  | done a =>
    cases hplays with
    | nil => cases h; rfl
    | cons hreply hrest => cases h
  | emit item rest ih => exact item.elim
  | ask call resume ih =>
    obtain ⟨reply, rest, rfl, hrest⟩ := replay_ask h
    cases hplays with
    | cons hreply hplays =>
      rw [run_ask, hreply]
      exact ih reply hplays hrest

end PlayingBack

/-! ## Flows side by side -/

section SideBySide

variable {like : (call : C) → R call → R call → Prop} {items : β → β → Prop}
variable {results : α → α → Prop}

/-- Two flows make the same calls, as long as these are answered alike. What they hand out and end
with is related. -/
inductive Parallel (like : (call : C) → R call → R call → Prop) (items : β → β → Prop)
    (results : α → α → Prop) : Flow C R β α → Flow C R β α → Prop
  | done {a b : α} (h : results a b) : Parallel like items results (.done a) (.done b)
  | emit {b b' : β} {x y : Flow C R β α} (h : items b b')
    (hrest : Parallel like items results x y) :
    Parallel like items results (.emit b x) (.emit b' y)
  | ask {call : C} {k k' : R call → Flow C R β α}
    (h : ∀ reply reply', like call reply reply' →
      Parallel like items results (k reply) (k' reply')) :
    Parallel like items results (.ask call k) (.ask call k')

theorem Parallel.bind {results' : δ → δ → Prop} {x y : Flow C R β α} {f g : α → Flow C R β δ}
    (h : Parallel like items results x y)
    (hf : ∀ a b, results a b → Parallel like items results' (f a) (g b)) :
    Parallel like items results' (x.bind f) (y.bind g) := by
  induction h with
  | done h => exact hf _ _ h
  | emit h hrest ih => exact .emit h ih
  | ask h ih => exact .ask fun reply reply' hlike => ih reply reply' hlike

/-- Every call that a run of the flow makes satisfies `good` in the state in which it is made. -/
def Along {σ : Type} (good : C → σ → Prop) (answer : (call : C) → StateM σ (R call)) :
    Flow C R β α → σ → Prop
  | .done _, _ => True
  | .emit _ rest, s => rest.Along good answer s
  | .ask call resume, s =>
    good call s ∧ (resume (answer call s).1).Along good answer (answer call s).2

instance Along.decidable {σ : Type} {good : C → σ → Prop}
    {answer : (call : C) → StateM σ (R call)} [∀ call s, Decidable (good call s)] :
    (x : Flow C R β α) → (s : σ) → Decidable (x.Along good answer s)
  | .done _, _ => .isTrue trivial
  | .emit _ rest, s => Along.decidable rest s
  | .ask call resume, s =>
    have : Decidable ((resume (answer call s).1).Along good answer (answer call s).2) :=
      Along.decidable (resume (answer call s).1) (answer call s).2
    inferInstanceAs (Decidable (_ ∧ _))

/-- Environments that answer alike run flows that go side by side to related ends. -/
theorem Parallel.collect {σ τ : Type} {good : C → σ → Prop} {inv : σ → τ → Prop}
    {answer : (call : C) → StateM σ (R call)} {answer' : (call : C) → StateM τ (R call)}
    {x y : Flow C R β α} (h : Parallel like items results x y)
    (hanswer : ∀ call s t, good call s → inv s t →
      like call (answer call s).1 (answer' call t).1 ∧ inv (answer call s).2 (answer' call t).2)
    {s : σ} {t : τ} (hgood : x.Along good answer s) (hinv : inv s t) :
    List.Forall₂ items (x.collect answer s).1.1 (y.collect answer' t).1.1
      ∧ results (x.collect answer s).1.2 (y.collect answer' t).1.2
      ∧ inv (x.collect answer s).2 (y.collect answer' t).2 := by
  -- induction on the pair of flows: alike answers lead to flows that go on side by side
  induction h generalizing s t with
  | done h => exact ⟨.nil, h, hinv⟩
  | emit h hrest ih =>
    rcases ih hgood hinv with ⟨hitems, hrests⟩
    exact ⟨.cons h hitems, hrests⟩
  | @ask call k k' h ih =>
    rcases hanswer call s t hgood.1 hinv with ⟨hlike, hnext⟩
    exact ih _ _ hlike hgood.2 hnext

end SideBySide

end DavGateway.Flow
