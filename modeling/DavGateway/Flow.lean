/-!
# Flows

A flow is a program written down as data: it makes calls, each answered from outside, hands out
items on its way, and ends with a result. What answers the calls is chosen later (`Flow.run`), so
the same flow runs against a real store, a store with faults, or any behaviour at all; stopping a
flow early is not going on with it.
-/

namespace DavGateway

/-- A program that makes calls `c : C`, each answered by an `R c`, hands out items of `β` and ends
with an `α`. -/
inductive Flow (C : Type) (R : C → Type) (β α : Type) : Type where
  | done (result : α)
  | emit (item : β) (rest : Flow C R β α)
  | ask (call : C) (resume : R call → Flow C R β α)

namespace Flow

variable {C C' : Type} {R : C → Type} {R' : C' → Type} {β γ α δ : Type}

/-- Goes on with `f` where the flow ends. -/
def bind : Flow C R β α → (α → Flow C R β δ) → Flow C R β δ
  | .done result, f => f result
  | .emit item rest, f => .emit item (rest.bind f)
  | .ask call resume, f => .ask call fun answer => (resume answer).bind f

instance : Monad (Flow C R β) where
  pure := .done
  bind := .bind

@[simp] theorem pure_eq (a : α) : (pure a : Flow C R β α) = .done a := rfl

@[simp] theorem bind_eq (x : Flow C R β α) (f : α → Flow C R β δ) : x >>= f = x.bind f := rfl

@[simp] theorem done_bind (a : α) (f : α → Flow C R β δ) : (Flow.done a).bind f = f a := rfl

@[simp] theorem emit_bind (b : β) (x : Flow C R β α) (f : α → Flow C R β δ) :
    (Flow.emit b x).bind f = .emit b (x.bind f) := rfl

@[simp] theorem ask_bind (c : C) (k : R c → Flow C R β α) (f : α → Flow C R β δ) :
    (Flow.ask c k).bind f = .ask c fun answer => (k answer).bind f := rfl

theorem bind_done (x : Flow C R β α) : x.bind .done = x := by
  induction x with
  | done a => rfl
  | emit b x ih => rw [emit_bind, ih]
  | ask c k ih => simp only [ask_bind, ih]

theorem bind_assoc (x : Flow C R β α) (f : α → Flow C R β δ) (g : δ → Flow C R β γ) :
    (x.bind f).bind g = x.bind fun a => (f a).bind g := by
  induction x with
  | done a => rfl
  | emit b x ih => simp only [emit_bind, ih]
  | ask c k ih => simp only [ask_bind, ih]

/-- The flow that makes one call and ends with its answer. -/
def call (c : C) : Flow C R β (R c) := .ask c .done

/-- The same flow with other items. -/
def mapItems (f : β → γ) : Flow C R β α → Flow C R γ α
  | .done result => .done result
  | .emit item rest => .emit (f item) (rest.mapItems f)
  | .ask call resume => .ask call fun answer => (resume answer).mapItems f

/-- The same flow with its calls made through another set of calls. -/
def through (f : C → C') (answer : ∀ c, R' (f c) → R c) : Flow C R β α → Flow C' R' β α
  | .done result => .done result
  | .emit item rest => .emit item (rest.through f answer)
  | .ask call resume =>
    .ask (f call) fun reply => (resume (answer call reply)).through f answer

/-! ## Running -/

variable {m : Type → Type} [Monad m]

/-- Runs a flow that hands out nothing, with `answer` for its calls. -/
def run (answer : (c : C) → m (R c)) : Flow C R Empty α → m α
  | .done result => pure result
  | .ask call resume => do
    let reply ← answer call
    (resume reply).run answer

/-- Runs a flow to its end, and collects what it hands out. -/
def collect (answer : (c : C) → m (R c)) : Flow C R β α → m (List β × α)
  | .done result => pure ([], result)
  | .emit item rest => do
    let (items, result) ← rest.collect answer
    pure (item :: items, result)
  | .ask call resume => do
    let reply ← answer call
    (resume reply).collect answer

/-- Runs a flow until it has handed out `limit` items. There is a result only if the flow ends
before that. -/
def collectUpTo (answer : (c : C) → m (R c)) : Nat → Flow C R β α → m (List β × Option α)
  | 0, _ => pure ([], none)
  | _ + 1, .done result => pure ([], some result)
  | limit + 1, .emit item rest => do
    let (items, result) ← rest.collectUpTo answer limit
    pure (item :: items, result)
  | limit + 1, .ask call resume => do
    let reply ← answer call
    (resume reply).collectUpTo answer (limit + 1)

end Flow

end DavGateway
