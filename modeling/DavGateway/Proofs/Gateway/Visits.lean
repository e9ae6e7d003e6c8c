import DavGateway.Proofs.Gateway.Exchanges
import DavGateway.Proofs.Http.Changes

/-!
# Visits

A visit is a request whose response is read to its end, or dropped after some chunks of its body.
An engine that keeps an invariant while it answers the calls that a request may make
(`Engine.Upholds`) keeps it over the whole visit (`Engine.Upholds.visit`), and with it a store keeps
all that the granted changes leave alone (`StoreClient.Keeps.visit`).
-/

namespace DavGateway

/-- A request, and how many chunks of the answer are read before it is dropped. Without a number it
is read to its end. -/
structure Visit where
  request : Http.Request
  patience : Option Nat := none

namespace Engine

variable {σ : Type}

/-- Reads at most `limit` chunks of the body of a response, and drops the body then. -/
def readUpTo (client : StoreClient σ) (body : Http.Body) (limit : Nat) :
    StateM (Engine σ) (List Bytes) :=
  match body with
  | .whole bytes => pure ((if bytes.isEmpty then [] else [bytes]).take limit)
  | .streamed session flow => do
    let (chunks, _) ← flow.collectUpTo (bodyAnswer client session) limit
    dropBody body
    return chunks

/-- Reads the body of a response as far as the visit goes. -/
def readAsFar (client : StoreClient σ) (body : Http.Body) :
    Option Nat → StateM (Engine σ) (List Bytes × Option Failure)
  | none => readBody client body
  | some limit => do return (← readUpTo client body limit, none)

/-- Makes a visit. There is no exchange while the request waits for a slot. -/
def visit (client : StoreClient σ) (table : MountTable) (v : Visit) :
    OptionT (StateM (Engine σ)) Exchange := do
  let response ← handle client table v.request
  let reading : StateM (Engine σ) (List Bytes × Option Failure) :=
    readAsFar client response.body v.patience
  let (chunks, failure) ← reading
  return ⟨response.status, response.headers, chunks, failure⟩

variable {client : StoreClient σ} {table : MountTable} {may : Change → Prop}
variable {inv : Option OpenSession → Engine σ → Prop} {e e' : Engine σ}

/-! ## Single calls -/

/-- A session that is opened is one on the pool, and the store is not asked for it. -/
theorem enter_answered {pool : PoolRef} {limit : Span} {answer : Except Failure OpenSession}
    (h : (enter pool limit).run e = (some answer, e')) :
    e'.store = e.store
      ∧ ∀ session, answer = .ok session → session.pool = pool ∧ session.limit = limit := by
  rw [enter_run] at h
  split at h
  · cases h
  · cases h
    exact ⟨rfl, nofun⟩
  · next slot slots _ =>
    let taken : Engine σ := { e with slots := slots }
    cases hmode : taken.mode with
    | blocking =>
      rw [openSession_blocking hmode] at h
      cases h
      exact ⟨rfl, by rintro _ ⟨⟩; exact ⟨rfl, rfl⟩⟩
    | async =>
      rw [openSession_async hmode] at h
      cases h
      exact ⟨rfl, by rintro _ ⟨⟩; exact ⟨rfl, rfl⟩⟩

theorem enter_unanswered {pool : PoolRef} {limit : Span}
    (h : (enter pool limit).run e = (none, e')) : e'.store = e.store := by
  rw [enter_run] at h
  split at h
  · cases h
    rfl
  · cases h
  · cases h

/-! ## Visits -/

/-- What follows a request is what its response needs. -/
theorem visit_run (v : Visit) : (visit client table v).run e =
    match (handle client table v.request).run e with
    | (some response, e') =>
      (some ⟨response.status, response.headers,
          (readAsFar client response.body v.patience e').1.1,
          (readAsFar client response.body v.patience e').1.2⟩,
        (readAsFar client response.body v.patience e').2)
    | (none, e') => (none, e') := by
  cases hresponse : (handle client table v.request).run e with
  | mk response? e' =>
    cases response? with
    | some response => exact run_bind_apply hresponse
    | none =>
      unfold visit
      rw [OptionT.run_bind]
      exact bind_apply hresponse

/-- After a body that is read to its end, its session is closed. -/
theorem readBody_streamed {session : Option OpenSession}
    {flow : SessionFlow Bytes (Except Failure Unit)} {chunks : List Bytes}
    {result : Except Failure Unit} {e' : Engine σ}
    (h : flow.collect (bodyAnswer client session) e = ((chunks, result), e')) :
    readBody client (.streamed session flow) e =
      ((chunks, match result with | .ok () => none | .error failure => some failure),
        (dropBody (.streamed session flow) e').2) := by
  refine (bind_apply h).trans ?_
  cases result <;> rfl

/-! ## Invariants -/

/-- While the engine answers the calls that a request may make, it keeps an invariant, which may
depend on the session that the request holds. -/
def Upholds (client : StoreClient σ) (may : Change → Prop)
    (inv : Option OpenSession → Engine σ → Prop) : Prop :=
  (GatewayFlow.protocol may).UpheldBy (respond client) inv (inv none)

namespace Upholds

theorem mono {may' : Change → Prop} (h : Upholds client may inv)
    (hmay : ∀ change, may' change → may change) : Upholds client may' inv := by
  have hcalls : ∀ {held call}, (GatewayFlow.protocol may').may held call →
      (GatewayFlow.protocol may).may held call := by
    intro held call hcall
    cases call with
    | enter pool limit | leave session => exact hcall
    | within session call =>
      exact ⟨hcall.1, fun change hchange => hmay change (hcall.2 change hchange)⟩
    | createPool ref => exact hmay _ hcall
  exact ⟨fun hcall => h.answered (hcalls hcall), fun hcall => h.unanswered (hcalls hcall)⟩

/-- A request holds the session that its response needs, and none if it got no response. -/
theorem handle {r : Http.Request} {e' : Engine σ} (h : Upholds client (r.IsGranted table) inv)
    (he : inv none e) :
    (∀ {response}, (handle client table r).run e = (some response, e') →
        inv response.body.session? e' ∧ response.body.Keeps (r.IsGranted table))
      ∧ ((Engine.handle client table r).run e = (none, e') → inv none e') := by
  rcases (Http.serve_obeys table r).run h he with ⟨hanswered, hunanswered⟩
  refine ⟨fun hresponse => ?_, hunanswered⟩
  rcases hanswered hresponse with ⟨held, ⟨rfl, hkeeps⟩, he'⟩
  exact ⟨he', hkeeps⟩

/-- A call in a session is answered. -/
theorem answer {session : OpenSession} {call : SessionCall} (h : Upholds client may inv)
    (hcall : call.Makes may session.pool) (he : inv (some session) e) :
    inv (some session) (answer client session call e).2 := by
  have hmay : (GatewayFlow.protocol may).may (some session) (.within session call) := ⟨rfl, hcall⟩
  exact (h.answered hmay he rfl).2

/-- A body is dropped. -/
theorem dropBody {body : Http.Body} (h : Upholds client may inv) (he : inv body.session? e) :
    inv none (dropBody body e).2 := by
  unfold Engine.dropBody
  cases hsession : body.session? with
  | none =>
    rw [hsession] at he
    exact he
  | some session =>
    rw [hsession] at he
    have hmay : (GatewayFlow.protocol may).may (some session) (.leave session) := rfl
    exact (h.answered hmay he rfl).2

/-- Whatever a body asks for is answered in the session that it needs, or without the store. -/
theorem bodyAnswer {session : Option OpenSession} {call : SessionCall}
    (h : Upholds client may inv)
    (hcall : ∀ needed, session = some needed → call.Makes may needed.pool)
    (he : inv session e) : inv session (bodyAnswer client session call e).2 := by
  cases session with
  | some session => exact h.answer (hcall session rfl) he
  | none => cases call <;> exact he

/-- The body of a response is read as far as the visit goes, and its session is closed. -/
theorem readAsFar {body : Http.Body} (h : Upholds client may inv) (hbody : body.Keeps may)
    (he : inv body.session? e) (patience : Option Nat) :
    inv none (readAsFar client body patience e).2 := by
  cases body with
  | whole bytes => cases patience <;> exact he
  | streamed session flow =>
    have honly : flow.Only fun call =>
        ∀ needed, session = some needed → call.Makes may needed.pool := by
      cases session with
      | none => exact Flow.only_of_forall (fun _ => nofun) flow
      | some session =>
        refine Flow.Only.mono hbody fun call hcall needed hneeded => ?_
        cases hneeded
        exact hcall
    have hanswer : ∀ call e, (∀ needed, session = some needed → call.Makes may needed.pool) →
        inv session e → inv session (Engine.bodyAnswer client session call e).2 :=
      fun call e hcall he => h.bodyAnswer hcall he
    cases patience with
    | none =>
      have hread := honly.collect hanswer he
      cases hcollect : flow.collect (Engine.bodyAnswer client session) e with
      | mk answered e' =>
        rw [hcollect] at hread
        show inv none (readBody client (.streamed session flow) e).2
        rw [readBody_streamed hcollect]
        exact h.dropBody hread
    | some limit =>
      have hread := honly.collectUpTo hanswer limit he
      have hneeds : inv (Http.Body.streamed session flow).session?
          (flow.collectUpTo (Engine.bodyAnswer client session) limit e).2 := hread
      exact h.dropBody hneeds

/-- A whole visit is made. -/
theorem visit (v : Visit) (h : Upholds client (v.request.IsGranted table) inv)
    (he : inv none e) : inv none ((visit client table v).run e).2 := by
  rw [visit_run]
  cases hserved : (Engine.handle client table v.request).run e with
  | mk response? e' =>
    cases response? with
    | none => exact (h.handle he).2 hserved
    | some response =>
      rcases (h.handle he).1 hserved with ⟨he', hkeeps⟩
      exact h.readAsFar hkeeps he' v.patience

end Upholds

end Engine

/-! ## What a store keeps -/

/-- The calls of a client keep a property of the store, as long as only changes are made that may be
made. -/
structure StoreClient.Keeps {σ : Type} (client : StoreClient σ) (may : Change → Prop)
    (inv : σ → Prop) : Prop where
  createPool : ∀ {ref s}, may (.create ref) → inv s → inv (client.createPool ref s).2
  perform : ∀ {ref operation s}, (SessionCall.operate operation).Makes may ref → inv s →
    inv (client.perform ref operation s).2
  list : ∀ {ref s}, inv s → inv (client.list ref s).2
  advance : ∀ {ref key s}, inv s → inv (client.advance ref key s).2
  allocate : ∀ {ref s}, inv s → inv (client.allocate ref s).2
  submit : ∀ {ref operation ticket s}, (SessionCall.operate operation).Makes may ref → inv s →
    inv (client.submit ref operation ticket s).2
  await : ∀ {ticket limit s}, inv s → inv (client.await ticket limit s).2

namespace StoreClient.Keeps

variable {σ : Type} {client : StoreClient σ} {may : Change → Prop} {inv : σ → Prop}
variable {e e' : Engine σ} {session : OpenSession}

theorem mono {may' : Change → Prop} (h : client.Keeps may inv)
    (hmay : ∀ change, may' change → may change) : client.Keeps may' inv where
  createPool := fun hcreate => h.createPool (hmay _ hcreate)
  perform := fun hmakes => h.perform fun change hchange => hmay _ (hmakes change hchange)
  list := h.list
  advance := h.advance
  allocate := h.allocate
  submit := fun hmakes => h.submit fun change hchange => hmay _ (hmakes change hchange)
  await := h.await

/-- Only the submission of an operation and the wait for it reach the store. -/
theorem bridgeStep (h : client.Keeps may inv) {channel : Nat} {operation : Operation}
    (hmakes : (SessionCall.operate operation).Makes may session.pool) (step : BridgeStep)
    (he : inv e.store) :
    inv (Engine.bridgeStep client session channel operation step e).2.store := by
  cases step with
  | bump | drain | abandon stamp | take ticket => exact he
  | allocate stamp =>
    have hallocate : inv (client.allocate session.pool e.store).2 := h.allocate he
    cases hanswer : client.allocate session.pool e.store with
    | mk result store =>
      rw [hanswer] at hallocate
      show inv ((Engine.onStore (client.allocate session.pool) >>= _) e).2.store
      rw [Engine.bind_apply (Engine.onStore_apply hanswer)]
      cases result <;> exact hallocate
  | submit ticket => exact h.submit hmakes he
  | wait ticket limit =>
    show inv (Engine.wait client session.slot channel ticket limit e).2.store
    rcases Engine.wait_store client session.slot channel ticket limit with hsame | hgiven
    · rw [hsame]
      exact he
    · rw [hgiven]
      exact h.await he

theorem operate (h : client.Keeps may inv) {operation : Operation}
    (hmakes : (SessionCall.operate operation).Makes may session.pool) (he : inv e.store) :
    inv (Engine.operate client session operation e).2.store := by
  unfold Engine.operate
  cases session.channel with
  | none => exact h.perform hmakes he
  | some channel =>
    let keeps : Engine σ → Prop := fun e => inv e.store
    have hstep : ∀ step e, True → keeps e →
        keeps (Engine.bridgeStep client session channel operation step e).2 :=
      fun step e _ he => h.bridgeStep hmakes step he
    exact (Flow.only_of_forall (fun _ => trivial) _).run hstep he

/-- A client that keeps a property of its store is one over an engine that upholds it. -/
theorem upholds (h : client.Keeps may inv) :
    Engine.Upholds client may fun _ e => inv e.store where
  answered := by
    intro held call e reply e' hcall he hanswer
    cases call with
    | enter pool limit =>
      rcases Engine.enter_answered hanswer with ⟨hstore, hsession⟩
      refine ⟨hsession, ?_⟩
      rw [hstore]
      exact he
    | within session call =>
      cases hanswer
      refine ⟨trivial, ?_⟩
      cases call with
      | operate operation => exact h.operate hcall.2 he
      | list => exact h.list he
      | advance next => exact h.advance he
    | leave session =>
      cases hanswer
      refine ⟨trivial, ?_⟩
      show inv (Engine.leave session e).2.store
      rw [Engine.leave_store]
      exact he
    | createPool ref =>
      cases hanswer
      exact ⟨trivial, h.createPool hcall he⟩
  unanswered := by
    intro held call e e' hcall he hanswer
    cases call with
    | enter pool limit =>
      rw [Engine.enter_unanswered hanswer]
      exact he
    | within session call | leave session | createPool ref => cases hanswer

/-- A visit keeps what the changes granted to its request leave alone. -/
theorem visit {table : MountTable} (v : Visit)
    (h : client.Keeps (v.request.IsGranted table) inv) (he : inv e.store) :
    inv ((Engine.visit client table v).run e).2.store := by
  let kept : Option OpenSession → Engine σ → Prop := fun _ e => inv e.store
  have hkept : kept none e := he
  exact Engine.Upholds.visit v h.upholds hkept

end StoreClient.Keeps

end DavGateway
