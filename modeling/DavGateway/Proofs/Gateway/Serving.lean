import DavGateway.Proofs.Gateway.Sessions
import DavGateway.Proofs.Transfer.Upload

/-!
# The parts of serving a request

What the parts of `Http.Serve` come to on an engine that is ready: a session is opened, an object
is looked up in it, and the session is closed again unless the response needs it. The results are
told from the pool of the mount alone.
-/

namespace DavGateway

namespace Engine

variable {e e' e₁ e₂ : Engine Clusters} {session : OpenSession} {p p' : MemoryPool}
variable {r : Http.Request} {mount : Mount} {verb : Http.Verb} {key : String}

/-- The engine is ready for the requests to a mount, whose operations are carried out in time. -/
structure Mounted (e : Engine Clusters) (mount : Mount) (p : MemoryPool) : Prop where
  ready : e.Ready
  pool : e.store.poolAt? mount.ref = some p
  prompt : ∀ number, (e.store.dispatcher.delay number).nanos ≤ mount.limit.nanos

/-- The engine `e'` is ready again, and nothing but the pool has changed since `e`. -/
structure Settled (e e' : Engine Clusters) (ref : PoolRef) (p : MemoryPool) : Prop where
  ready : e'.Ready
  beside : e.Beside e' ref
  pool : e'.store.poolAt? ref = some p

namespace Serves

variable {α β : Type}

/-! ## Flows that can end with a problem -/

theorem ok_bind {x : Http.ServeM α} {f : α → Http.ServeM β} {a : α}
    {result : Except Http.Problem β} (h : e.Serves x.run (.ok a) e₁)
    (hf : e₁.Serves (f a).run result e') : e.Serves (x >>= f).run result e' := by
  rw [ExceptT.run_bind]
  exact h.bind hf

theorem error_bind {x : Http.ServeM α} {f : α → Http.ServeM β} {problem : Http.Problem}
    (h : e.Serves x.run (.error problem) e') : e.Serves (x >>= f).run (.error problem) e' := by
  rw [ExceptT.run_bind]
  exact h.bind (.done _ _)

theorem pure (e : Engine Clusters) (a : α) :
    e.Serves (Pure.pure a : Http.ServeM α).run (.ok a) e := rfl

theorem throw (e : Engine Clusters) (problem : Http.Problem) :
    e.Serves (throw problem : Http.ServeM α).run (.error problem) e := rfl

theorem ensure (e : Engine Clusters) (x : Except Http.Problem α) :
    e.Serves (Http.Serve.ensure x).run x e := rfl

theorem require {x : GatewayFlow (Except Failure α)} {result : Except Failure α}
    (f : Failure → Http.Problem) (h : e.Serves x result e') :
    e.Serves (Http.Serve.require f x).run (result.mapError f) e' := h.bind (.done _ _)

end Serves

/-! ## Sessions -/

/-- A session is opened on the pool of the mount. -/
theorem Mounted.serves_enter (h : e.Mounted mount p) :
    ∃ session e', e.Serves (Http.Serve.enter mount).run (.ok session) e' ∧ e.Holds e' session p
      ∧ session.pool = mount.ref := by
  rcases enter_apply h.ready h.pool h.prompt with ⟨session, e', henter, hholds, href⟩
  have hcall : (respond Clusters.client (.enter mount.ref mount.limit)).run e =
      (some (.ok session), e') := henter
  exact ⟨session, e', Serves.require .ofFailure (.ask hcall (.done _ _)), hholds, href⟩

/-- What a session does to its pool alone, a request does in it. -/
theorem Holds.serves_within {α : Type} {x : SessionM Empty α} {items : List Empty}
    {result : Except Failure α} (h : e.Holds e₁ session p)
    (hruns : p.Runs e.store.now x.run items result p') (f : Failure → Http.Problem) :
    ∃ e₂, e₁.Serves (Http.Serve.within session f x).run (result.mapError f) e₂
      ∧ e.Holds e₂ session p' := by
  rcases Serves.within hruns h.attends h.beside.now with ⟨e₂, hserves, hattends, hbeside⟩
  exact ⟨e₂, Serves.require f hserves, h.after hattends hbeside⟩

/-- Size and time of the object under a key, if there is one. -/
def statOf (p : MemoryPool) (key : String) : Option ObjectStat :=
  (p.objects.get? key).map MemoryObject.stat

theorem statOf_of_some {object : MemoryObject} (h : p.objects.get? key = some object) :
    statOf p key = some object.stat := by
  unfold statOf
  rw [h]
  rfl

theorem statOf_of_none (h : p.objects.get? key = none) : statOf p key = none := by
  unfold statOf
  rw [h]
  rfl

/-- An object is looked up, and found to be missing if it is. -/
theorem Holds.serves_lookUp (h : e.Holds e₁ session p) (key : String) :
    ∃ e₂, e₁.Serves (Http.Serve.lookUp session key).run (.ok (statOf p key)) e₂
      ∧ e.Holds e₂ session p := by
  cases hget : p.objects.get? key with
  | some object =>
    have hstat : p.Runs e.store.now (Session.attempt (Session.stat key) : SessionM Empty _).run []
        (.ok (.ok object.stat)) p := (MemoryPool.Runs.stat_of_some hget).attempt
    rcases h.serves_within hstat .ofFailure with ⟨e₂, hserves, hholds⟩
    rw [statOf_of_some hget]
    exact ⟨e₂, .ok_bind hserves (.pure _ _), hholds⟩
  | none =>
    have hstat : p.Runs e.store.now (Session.attempt (Session.stat key) : SessionM Empty _).run []
        (.ok (.error (.objectNotFound key))) p := (MemoryPool.Runs.stat_of_none hget).attempt
    rcases h.serves_within hstat .ofFailure with ⟨e₂, hserves, hholds⟩
    rw [statOf_of_none hget]
    exact ⟨e₂, .ok_bind hserves (.pure _ _), hholds⟩

/-- A session that the response does not need is closed. -/
theorem Holds.serves_closing (hready : e.Ready) (h : e.Holds e₂ session p)
    {body : Http.ServeM Http.Response} {result : Except Http.Problem Http.Response}
    (hbody : e₁.Serves body.run result e₂)
    (hleaves : ∀ response, result = .ok response → response.body.session? = none) :
    ∃ e', e₁.Serves (Http.Serve.closing session body).run result e'
      ∧ e.Settled e' session.pool p := by
  rcases leave_apply hready h with ⟨e', hleave, hready', hbeside, hpool⟩
  refine ⟨e', hbody.bind ?_, hready', hbeside, hpool⟩
  have hcall : (respond Clusters.client (.leave session)).run e₂ = (some (), e') := by
    show (match leave session e₂ with
      | (reply, e) => (some reply, e)) = _
    rw [hleave]
  cases result with
  | error problem => exact .ask hcall (.done _ _)
  | ok response =>
    simp only [hleaves response rfl]
    exact .ask hcall (.done _ _)

/-- A session that the response needs stays open. -/
theorem Serves.closing_kept {body : Http.ServeM Http.Response} {response : Http.Response}
    (hbody : e₁.Serves body.run (.ok response) e₂)
    (hkeeps : response.body.session? = some session) :
    e₁.Serves (Http.Serve.closing session body).run (.ok response) e₂ := by
  apply hbody.bind
  simp only [hkeeps, beq_self_eq_true, if_true]
  exact .done _ _

/-! ## Requests for a key -/

/-- A request for a key gets a session, and looks the object up. What it does with the object
decides whether the session is closed before the response is given. -/
theorem Mounted.serves_onKey (h : e.Mounted mount p)
    (hpermitted : verb.isPermitted mount.permissions) (hverb : verb ≠ .mkcol)
    (hkey : Names.checkKey key = .ok ()) :
    ∃ (session : OpenSession) (e₂ : Engine Clusters), e.Holds e₂ session p
      ∧ session.pool = mount.ref
      ∧ ∀ {result : Except Http.Problem Http.Response} {e₃ : Engine Clusters},
        e₂.Serves (Http.Serve.onObject r mount verb key session (statOf p key)).run result e₃ →
          (∀ {p'}, e.Holds e₃ session p' →
            (∀ response, result = .ok response → response.body.session? = none) →
            ∃ e', e.Serves (Http.Serve.onKey r mount verb key).run result e'
              ∧ e.Settled e' mount.ref p')
          ∧ ∀ response, result = .ok response → response.body.session? = some session →
            e.Serves (Http.Serve.onKey r mount verb key).run result e₃ := by
  rcases h.serves_enter with ⟨session, e₁, henter, hholds, href⟩
  rcases hholds.serves_lookUp key with ⟨e₂, hlookUp, hholds⟩
  refine ⟨session, e₂, hholds, href, fun {result e₃} hobject => ?_⟩
  have hbody := hlookUp.ok_bind hobject
  -- before the session is opened, the verb and the key are checked
  have hchecked : ∀ {e'}, e₁.Serves (Http.Serve.closing session (do
      let stat ← Http.Serve.lookUp session key
      Http.Serve.onObject r mount verb key session stat)).run result e' →
        e.Serves (Http.Serve.onKey r mount verb key).run result e' := by
    intro e' hclosing
    have hvalid : (Names.checkKey key).mapError Http.Problem.ofFailure = .ok () := by
      rw [hkey]
      rfl
    have hensure := Serves.ensure e ((Names.checkKey key).mapError Http.Problem.ofFailure)
    rw [hvalid] at hensure
    unfold Http.Serve.onKey
    rw [if_neg (by simpa using hpermitted), if_neg hverb, hvalid]
    exact hensure.ok_bind (henter.ok_bind hclosing)
  constructor
  · intro p' hholds' hleaves
    rcases hholds'.serves_closing h.ready hbody hleaves with ⟨e', hclosing, hsettled⟩
    exact ⟨e', hchecked hclosing, href ▸ hsettled⟩
  · rintro response rfl hkeeps
    exact hchecked (hbody.closing_kept hkeeps)

/-! ## Requests for an object that was looked up -/

/-- A body that arrives as declared is stored, whether the object was there or not. -/
theorem Holds.serves_put (h : e.Holds e₂ session p) {frames : List Bytes} {declared : Option Nat}
    (hkey : Names.checkKey key = .ok ()) (hframes : r.body = frames.map .ok)
    (hdeclared : Http.Serve.declaredLength r = .ok declared)
    (hlength : ∀ length, declared = some length → length = frames.flatten.length)
    (hsmall : frames.flatten.length < Text.signedLimit) :
    ∃ e₃ p', e₂.Serves (Http.Serve.onObject r mount .put key session (statOf p key)).run
        (.ok { status := 201 }) e₃
      ∧ e.Holds e₃ session p' ∧ Upload.Stored p p' key (some frames.flatten) := by
  rcases Upload.run_runs e.store.now p frames Upload.usualChunk hkey hsmall hlength
      with ⟨receipt, p', hruns, hstored⟩
  rcases h.serves_within hruns .ofFailure with ⟨e₃, hwithin, hholds⟩
  refine ⟨e₃, p', ?_, hholds, hstored⟩
  have hdeclares := Serves.ensure e₂ (Http.Serve.declaredLength r)
  have harrived : (r.body.map fun frame => frame.mapError Failure.body) = frames.map .ok := by
    rw [hframes, List.map_map]
    rfl
  have hupload : e₂.Serves (Http.Serve.upload r session key (p.objects.get? key).isSome).run
      (.ok { status := 201 }) e₃ := by
    unfold Http.Serve.upload
    rw [harrived]
    rw [hdeclared] at hdeclares ⊢
    exact hdeclares.ok_bind (hwithin.ok_bind (.pure _ _))
  -- the upload is told whether there is an object to be replaced
  cases hget : p.objects.get? key with
  | none =>
    rw [statOf_of_none hget]
    rwa [hget] at hupload
  | some object =>
    rw [statOf_of_some hget]
    rwa [hget] at hupload

/-- An object that is there is removed. -/
theorem Holds.serves_delete (h : e.Holds e₂ session p) {object : MemoryObject}
    (hget : p.objects.get? key = some object) :
    ∃ e₃, e₂.Serves (Http.Serve.onObject r mount .delete key session (statOf p key)).run
        (.ok { status := 200 }) e₃
      ∧ e.Holds e₃ session ⟨p.objects.erase key⟩ := by
  have hruns : p.Runs e.store.now (Session.remove key : SessionM Empty Unit).run [] (.ok ()) _ :=
    MemoryPool.Runs.remove_of_some hget
  rcases h.serves_within hruns fun failure => .forbidden failure.message with ⟨e₃, hwithin, hholds⟩
  refine ⟨e₃, ?_, hholds⟩
  rw [statOf_of_some hget]
  exact hwithin.ok_bind (.pure _ _)

/-- Of an object that is missing, only an upload makes something. -/
theorem serves_missing (e : Engine Clusters) (hget : p.objects.get? key = none)
    (hverb : verb ≠ .put) :
    e.Serves (Http.Serve.onObject r mount verb key session (statOf p key)).run
      (.error (.notFound ("object not found: " ++ key))) e := by
  rw [statOf_of_none hget]
  show e.Serves (ExceptT.run (if verb = .put then _ else _)) _ e
  rw [if_neg hverb]
  exact .throw _ _

end Engine

end DavGateway
