import DavGateway.Proofs.Flow
import DavGateway.Proofs.Http.Responses

/-!
# What a request may change

Serving a request makes calls, and some of them change the store: they write or remove an object, or
make a pool. Each such call has to be granted by the mount that the request leads to
(`Http.Request.IsGranted`). Whatever the calls are answered, a request makes no other changes, holds
at most one session at a time, and leaves a session open only for the body of its response
(`Http.serve_obeys`).
-/

namespace DavGateway

/-- A change of the stores. -/
inductive Change where
  | write (pool : PoolRef) (key : String)
  | remove (pool : PoolRef) (key : String)
  | create (pool : PoolRef)
deriving DecidableEq, Repr

/-- The change that an operation on a pool makes. -/
def Operation.change? (pool : PoolRef) : Operation → Option Change
  | .write key _ _ => some (.write pool key)
  | .remove key => some (.remove pool key)
  | .stat _ | .read _ _ _ => none

/-- The change that a call of a session on a pool makes. -/
def SessionCall.change? (pool : PoolRef) : SessionCall → Option Change
  | .operate operation => operation.change? pool
  | .list | .advance _ => none

/-- Is the change, if there is one, among those that may be made? -/
def SessionCall.Makes (may : Change → Prop) (pool : PoolRef) (call : SessionCall) : Prop :=
  ∀ change, call.change? pool = some change → may change

/-- A request with a verb that leads to a destination is granted a change: it may write the object
that it is for if it is an upload and the mount allows it, remove it for an upload or a removal that
the mount allows, and make a pool in the cluster of the mount if the mount allows this. -/
def Destination.Grants (d : Destination) (verb : Http.Verb) : Change → Prop
  | .write pool key =>
    verb = .put ∧ d.mount.permissions.put ∧ pool = d.mount.ref ∧ d.key = some key
  | .remove pool key =>
    (verb = .put ∧ d.mount.permissions.put ∨ verb = .delete ∧ d.mount.permissions.delete)
      ∧ pool = d.mount.ref ∧ d.key = some key
  | .create pool =>
    verb = .mkcol ∧ d.mount.permissions.mkcol ∧ pool.cluster = d.mount.ref.cluster
      ∧ d.key.map Text.withoutEndSlashes = some pool.pool

/-- The mount that a request leads to grants it a change. -/
def Http.Request.IsGranted (r : Http.Request) (table : MountTable) (change : Change) : Prop :=
  ∃ d verb, Http.Serve.locate table r = .ok d ∧ Http.Verb.ofMethod? r.method = some verb
    ∧ d.Grants verb change

/-! ## The calls of sessions -/

namespace Session

variable {β α δ : Type} {P : SessionCall → Prop}

theorem only_bind {x : SessionM β α} {f : α → SessionM β δ} (hx : x.run.Only P)
    (hf : ∀ a, (f a).run.Only P) : (x >>= f).run.Only P := by
  rw [ExceptT.run_bind]
  refine Flow.Only.bind hx fun result => ?_
  cases result with
  | ok a => exact hf a
  | error failure => trivial

theorem only_pure (a : α) : (pure a : SessionM β α).run.Only P := trivial

theorem only_throw (failure : Failure) : (throw failure : SessionM β α).run.Only P := trivial

theorem only_attempt {x : SessionM β α} (hx : x.run.Only P) : (attempt x).run.Only P :=
  Flow.Only.bind hx fun _ => trivial

theorem only_emit (item : β) : (emit item).run.Only P := trivial

theorem only_operate {operation : Operation} (h : P (.operate operation)) :
    (operate operation : SessionM β Reply).run.Only P := ⟨h, fun _ => trivial⟩

theorem only_stat {key : String} (h : P (.operate (.stat key))) :
    (stat key : SessionM β ObjectStat).run.Only P := by
  refine only_bind (only_operate h) fun reply => ?_
  cases reply <;> trivial

theorem only_read {key : String} {length offset : Nat}
    (h : P (.operate (.read key length offset))) :
    (read key length offset : SessionM β Bytes).run.Only P := by
  refine only_bind (only_operate h) fun reply => ?_
  cases reply <;> trivial

theorem only_write {key : String} {data : Bytes} {offset : Nat}
    (h : P (.operate (.write key data offset))) :
    (write key data offset : SessionM β Unit).run.Only P :=
  only_bind (only_operate h) fun _ => only_pure _

theorem only_remove {key : String} (h : P (.operate (.remove key))) :
    (remove key : SessionM β Unit).run.Only P := only_bind (only_operate h) fun _ => only_pure _

end Session

/-- A download only reads its object. -/
theorem Download.run_only {P : SessionCall → Prop} {key : String}
    (hread : ∀ length offset, P (.operate (.read key length offset))) (chunkSize size : Nat) :
    (run chunkSize key size).run.Only P := by
  have hchunks : ∀ offset, (chunksFrom (max chunkSize 1) key size offset).run.Only P := by
    intro offset
    -- each chunk brings the offset closer to the end
    induction hleft : size - offset using Nat.strongRecOn generalizing offset with
    | ind left ih =>
      rw [chunksFrom]
      split
      · refine Session.only_bind (Session.only_read (hread _ _)) fun data => ?_
        split
        · exact Session.only_throw _
        · exact Session.only_bind (Session.only_emit _) fun _ => ih _ (by omega) _ rfl
      · exact Session.only_pure _
  exact hchunks 0

/-- A listing only looks objects up. -/
theorem Listing.run_only {P : SessionCall → Prop} (hlist : P .list)
    (hadvance : ∀ next, P (.advance next)) (hstat : ∀ key, P (.operate (.stat key))) :
    run.run.Only P := by
  have hvisit : ∀ keys, (visit keys).run.Only P := by
    intro keys
    induction keys with
    | nil => exact ⟨hadvance none, fun _ => trivial⟩
    | cons key rest ih =>
      refine Session.only_bind ⟨hadvance (some key), fun _ => trivial⟩ fun _ => ?_
      refine Session.only_bind (Session.only_attempt (Session.only_stat (hstat key)))
        fun result => ?_
      match result with
      | .ok stat => exact Session.only_bind (Session.only_emit _) fun _ => ih
      | .error failure =>
        show Flow.Only P (ExceptT.run (if failure.isNotFound then _ else _))
        split
        · exact ih
        · exact Session.only_throw _
  exact Session.only_bind ⟨hlist, fun _ => trivial⟩ hvisit

namespace Upload

variable {P : SessionCall → Prop} {key : String}

theorem writeChunks_only (hwrite : ∀ data offset, P (.operate (.write key data offset)))
    (chunks : List Bytes) (offset : Nat) : (writeChunks key chunks offset).run.Only P := by
  induction chunks generalizing offset with
  | nil => exact Session.only_pure _
  | cons chunk rest ih => exact Session.only_bind (Session.only_write (hwrite _ _)) fun _ => ih _

theorem receive_only (hwrite : ∀ data offset, P (.operate (.write key data offset)))
    (chunkSize : Nat) (declared : Option Nat) (frames : List (Except Failure Bytes))
    (p : Progress) : (receive key chunkSize declared frames p).run.Only P := by
  induction frames generalizing p with
  | nil => exact Session.only_pure _
  | cons frame rest ih =>
    cases frame with
    | error failure => exact Session.only_throw _
    | ok data =>
      unfold receive
      simp only
      split
      · exact Session.only_throw _
      · exact Session.only_bind (writeChunks_only hwrite _ _) fun _ => ih _

theorem finish_only (hwrite : ∀ data offset, P (.operate (.write key data offset)))
    (declared : Option Nat) (p : Progress) : (finish key declared p).run.Only P := by
  unfold finish
  split
  · exact Session.only_throw _
  · split
    · exact Session.only_bind (Session.only_write (hwrite _ _)) fun _ => Session.only_pure _
    · exact Session.only_pure _

theorem clear_only (hremove : P (.operate (.remove key))) : (clear key).run.Only P := by
  refine Session.only_bind (Session.only_attempt (Session.only_remove hremove)) fun result => ?_
  match result with
  | .ok () => exact Session.only_pure _
  | .error failure =>
    show Flow.Only P (ExceptT.run (if failure.isNotFound then _ else _))
    split
    · exact Session.only_pure _
    · exact Session.only_throw _

/-- An upload only removes and writes its object. -/
theorem run_only {request : UploadRequest} (hremove : P (.operate (.remove request.key)))
    (hwrite : ∀ data offset, P (.operate (.write request.key data offset))) (chunkSize : Nat) :
    (run chunkSize request).run.Only P := by
  have hrest : (do
      let p ← receive request.key (max chunkSize 1) request.declared request.frames {}
      let p ← finish request.key request.declared p
      return ⟨p.received, p.chunks, request.replaces⟩ : SessionM Empty UploadReceipt).run.Only P :=
    Session.only_bind (receive_only hwrite _ _ _ _) fun _ =>
      Session.only_bind (finish_only hwrite _ _) fun _ => Session.only_pure _
  unfold run
  split
  · exact Session.only_bind (clear_only hremove) fun _ => hrest
  · exact hrest

end Upload

/-! ## The calls of requests -/

/-- The rules for the calls of a request: it holds one session at a time, which is on the pool that
was asked for, and makes no changes but those that it may. Its place is the session that it holds.
-/
def GatewayFlow.protocol (may : Change → Prop) :
    Flow.Protocol GatewayCall GatewayCall.Answer (Option OpenSession) where
  may held
    | .enter _ _ => held = none
    | .within session call => held = some session ∧ call.Makes may session.pool
    | .leave session => held = some session
    | .createPool ref => may (.create ref)
  can _
    | .enter pool limit, answer =>
      ∀ session, answer = .ok session → session.pool = pool ∧ session.limit = limit
    | .within _ _, _ | .leave _, _ | .createPool _, _ => True
  next held
    | .enter _ _, .ok session => some session
    | .enter _ _, .error _ | .within _ _, _ | .createPool _, _ => held
    | .leave _, _ => none

namespace Http

variable {may : Change → Prop} {α : Type}

/-- The calls that the body of a response makes in its session change nothing but what they may. -/
def Body.Keeps (may : Change → Prop) : Body → Prop
  | .whole _ | .streamed none _ => True
  | .streamed (some session) flow => flow.Only (SessionCall.Makes may session.pool)

namespace Serve

open DavGateway.Flow (Follows follows_pure follows_throw)

variable {r : Request} {d : Destination} {verb : Verb} {key : String} {session : OpenSession}

/-- The session is held, whatever has been done. -/
def Inside {δ : Type} (session : OpenSession) (held : Option OpenSession) (_ : δ) : Prop :=
  held = some session

/-- No session is held, whatever has been done. -/
def Outside {δ : Type} (held : Option OpenSession) (_ : δ) : Prop := held = none

theorem follows_ensure {S : Type} {p : Flow.Protocol GatewayCall GatewayCall.Answer S} {place : S}
    {ok : S → α → Prop} {failed : S → Problem → Prop} {x : Except Problem α}
    (hok : ∀ a, x = .ok a → ok place a)
    (hfailed : ∀ problem, x = .error problem → failed place problem) :
    Follows p ok failed place (ensure x) := by
  cases x with
  | ok a => exact hok a rfl
  | error problem => exact hfailed problem rfl

/-- What is done in the session that is held leaves it held. -/
theorem follows_within {x : SessionM Empty α} (f : Failure → Problem)
    (hx : x.run.Only (SessionCall.Makes may session.pool)) :
    Follows (GatewayFlow.protocol may) (Inside session) (Inside session) (some session)
      (within session f x) := by
  have hthrough : ∀ {flow : SessionFlow Empty (Except Failure α)},
      flow.Only (SessionCall.Makes may session.pool) →
      (flow.through (GatewayCall.within session) fun _ answer => answer).Obeys
        (GatewayFlow.protocol may) (fun held _ => held = some session) (some session) := by
    intro flow hflow
    induction flow with
    | done result => exact rfl
    | emit item rest ih => exact item.elim
    | ask call resume ih => exact ⟨⟨rfl, hflow.1⟩, fun answer _ => ih answer (hflow.2 answer)⟩
  refine (hthrough hx).bind fun held result hheld => ?_
  cases result with
  | ok a | error failure => exact hheld

/-! ## Serving a request -/

/-- A response that may need the session. -/
def Uses (may : Change → Prop) (session : OpenSession) (held : Option OpenSession)
    (response : Response) : Prop :=
  held = some session ∧ response.body.Keeps may
    ∧ ∀ needed, response.body.session? = some needed → needed = session

/-- A response that holds the session it needs, and no other. -/
def Leaves (may : Change → Prop) (held : Option OpenSession) (response : Response) : Prop :=
  held = response.body.session? ∧ response.body.Keeps may

theorem enter_follows (may : Change → Prop) (mount : Mount) :
    Follows (GatewayFlow.protocol may)
      (fun held session => held = some session ∧ session.pool = mount.ref) Outside none
      (enter mount) := by
  refine ⟨rfl, fun answer hcan => ?_⟩
  match answer with
  | .ok session => exact ⟨rfl, (hcan session rfl).1⟩
  | .error failure => exact rfl

theorem lookUp_follows (may : Change → Prop) :
    Follows (GatewayFlow.protocol may) (Inside session) (Inside session) (some session)
      (lookUp session key) := by
  have hstat : (Session.attempt (Session.stat key) : SessionM Empty _).run.Only
      (SessionCall.Makes may session.pool) := Session.only_attempt (Session.only_stat nofun)
  refine (follows_within .ofFailure hstat).bind fun held result hheld => ?_
  cases result with
  | ok stat => exact follows_pure hheld
  | error failure =>
    show Follows _ _ _ _ (if failure.isNotFound then _ else _ : ServeM (Option ObjectStat))
    split
    · exact follows_pure hheld
    · exact follows_throw hheld

/-- An upload that is allowed replaces its object. -/
theorem upload_follows (hgrants : ∀ change, d.Grants .put change → may change)
    (hput : d.mount.permissions.put)
    (hkey : d.key = some key) (hpool : session.pool = d.mount.ref) (replaces : Bool) :
    Follows (GatewayFlow.protocol may) (Uses may session) (Inside session) (some session)
      (upload r session key replaces) := by
  have hwrite : ∀ data offset, (SessionCall.operate (.write key data offset)).Makes
      may session.pool := by
    rintro data offset change ⟨⟩
    exact hgrants _ ⟨rfl, hput, hpool, hkey⟩
  have hremove : (SessionCall.operate (.remove key)).Makes may session.pool := by
    rintro change ⟨⟩
    exact hgrants _ ⟨.inl ⟨rfl, hput⟩, hpool, hkey⟩
  have hdeclared : Follows (GatewayFlow.protocol may) (Inside session) (Inside session)
      (some session) (ensure (declaredLength r)) := follows_ensure (fun _ _ => rfl) fun _ _ => rfl
  refine hdeclared.bind fun held declared hheld => ?_
  cases hheld
  have hrun : (Upload.run Upload.usualChunk ⟨key, r.body.map fun frame =>
      frame.mapError Failure.body, declared, replaces⟩).run.Only
        (SessionCall.Makes may session.pool) := Upload.run_only hremove hwrite _
  exact (follows_within .ofFailure hrun).bind fun held _ hheld =>
    follows_pure ⟨hheld, trivial, nofun⟩

/-- What is done with an object that was looked up. -/
theorem onObject_follows (hgrants : ∀ change, d.Grants verb change → may change)
    (hpermitted : verb.isPermitted d.mount.permissions)
    (hkey : d.key = some key) (hpool : session.pool = d.mount.ref) (stat : Option ObjectStat) :
    Follows (GatewayFlow.protocol may) (Uses may session) (Inside session) (some session)
      (onObject r d.mount verb key session stat) := by
  cases stat with
  | none =>
    show Follows _ _ _ _ (if verb = .put then _ else _ : ServeM Response)
    split
    · next hverb =>
      subst hverb
      exact upload_follows hgrants hpermitted hkey hpool false
    · exact follows_throw rfl
  | some stat =>
    cases verb with
    | put => exact upload_follows hgrants hpermitted hkey hpool true
    | delete =>
      have hremove : (Session.remove key : SessionM Empty Unit).run.Only
          (SessionCall.Makes may session.pool) := by
        refine Session.only_remove ?_
        rintro change ⟨⟩
        exact hgrants _ ⟨.inr ⟨rfl, hpermitted⟩, hpool, hkey⟩
      exact (follows_within _ hremove).bind fun held _ hheld =>
        follows_pure ⟨hheld, trivial, nofun⟩
    | propfind =>
      have hdrain : Follows (GatewayFlow.protocol may) (Inside session) (Inside session)
          (some session) (ensure (drain r.body)) := follows_ensure (fun _ _ => rfl) fun _ _ => rfl
      exact hdrain.bind fun held _ hheld => follows_pure ⟨hheld, trivial, nofun⟩
    | get =>
      refine follows_pure ⟨rfl, ?_⟩
      unfold objectResponse
      split
      · exact ⟨trivial, nofun⟩
      · refine ⟨Download.run_only (fun _ _ => nofun) _ _, fun needed hneeded => ?_⟩
        exact (Option.some.inj hneeded).symm
    | head =>
      refine follows_pure ⟨rfl, ?_⟩
      unfold objectResponse
      split <;> exact ⟨trivial, nofun⟩
    | options | mkcol => exact follows_throw rfl

/-- A session that the response does not need is closed. -/
theorem closing_follows {body : ServeM Response}
    (hbody : Follows (GatewayFlow.protocol may) (Uses may session) (Inside session) (some session)
      body) :
    Follows (GatewayFlow.protocol may) (Leaves may) Outside (some session)
      (closing session body) := by
  refine Flow.Obeys.bind hbody fun held result hresult => ?_
  cases result with
  | error problem => exact ⟨hresult, fun _ _ => rfl⟩
  | ok response =>
    rcases hresult with ⟨hheld, hkeeps, hneeded⟩
    simp only
    split
    · next hneeds => exact ⟨hheld.trans (beq_iff_eq.mp hneeds).symm, hkeeps⟩
    · next hneeds =>
      refine ⟨hheld, fun _ _ => ⟨?_, hkeeps⟩⟩
      cases hsession : response.body.session? with
      | none => rfl
      | some needed =>
        rw [hneeded needed hsession] at hsession
        exact absurd (beq_iff_eq.mpr hsession) hneeds

theorem makePool_follows (hgrants : ∀ change, d.Grants .mkcol change → may change)
    (hpermitted : Verb.mkcol.isPermitted d.mount.permissions)
    (hkey : d.key = some key) :
    Follows (GatewayFlow.protocol may) (Leaves may) Outside none (makePool d.mount key) := by
  have hmake : (GatewayFlow.createPool ⟨d.mount.ref.cluster, Text.withoutEndSlashes key⟩).Obeys
      (GatewayFlow.protocol may) (fun held _ => held = none) none := by
    unfold GatewayFlow.createPool
    split
    · exact rfl
    · refine ⟨hgrants _ ⟨rfl, hpermitted, rfl, ?_⟩, fun _ _ => rfl⟩
      rw [hkey]
      rfl
  have hrequire : Follows (GatewayFlow.protocol may) Outside Outside none
      (require .ofFailure (GatewayFlow.createPool
        ⟨d.mount.ref.cluster, Text.withoutEndSlashes key⟩)) := by
    refine hmake.bind fun held result hheld => ?_
    cases result <;> exact hheld
  exact hrequire.bind fun held _ hheld => follows_pure ⟨hheld, trivial⟩

theorem onKey_follows (hgrants : ∀ change, d.Grants verb change → may change)
    (hkey : d.key = some key) :
    Follows (GatewayFlow.protocol may) (Leaves may) Outside none (onKey r d.mount verb key) := by
  unfold onKey
  -- nothing is done before the verb was seen to be permitted
  split
  · exact follows_throw rfl
  · next hpermitted =>
    have hpermitted : verb.isPermitted d.mount.permissions := by simpa using hpermitted
    split
    · next hverb =>
      subst hverb
      exact makePool_follows hgrants hpermitted hkey
    · have hcheck : Follows (GatewayFlow.protocol may) Outside Outside none
          (ensure ((Names.checkKey key).mapError .ofFailure)) :=
        follows_ensure (fun _ _ => rfl) fun _ _ => rfl
      refine hcheck.bind fun held _ hheld => ?_
      cases hheld
      refine (enter_follows _ d.mount).bind fun held session hheld => ?_
      rcases hheld with ⟨rfl, hpool⟩
      refine closing_follows ((lookUp_follows _).bind fun held stat hheld => ?_)
      cases hheld
      exact onObject_follows hgrants hpermitted hkey hpool stat

theorem onRoot_follows :
    Follows (GatewayFlow.protocol may) (Leaves may) Outside none (onRoot r d.mount verb) := by
  have hnone : ∀ {α : Type} (x : Except Problem α),
      Follows (GatewayFlow.protocol may) Outside Outside none (ensure x) :=
    fun x => follows_ensure (fun _ _ => rfl) fun _ _ => rfl
  unfold onRoot
  split
  · refine (hnone _).bind fun held depth hheld => ?_
    cases hheld
    refine (hnone _).bind fun held _ hheld => ?_
    cases hheld
    cases depth with
    | itself => exact follows_pure ⟨rfl, trivial⟩
    | members =>
      refine (enter_follows _ d.mount).bind fun held session hheld => ?_
      rcases hheld with ⟨rfl, -⟩
      refine follows_pure ⟨rfl, ?_⟩
      -- the document holds the entries of a listing between two constant parts
      have hlisting := Listing.run_only (P := SessionCall.Makes may session.pool) nofun
        (fun _ => nofun) fun _ => nofun
      refine ((hlisting.mapItems _).mapItems _).bind fun result => ?_
      cases result <;> trivial
  · exact follows_throw rfl

theorem request_follows (table : MountTable) (r : Request) :
    Follows (GatewayFlow.protocol (r.IsGranted table)) (Leaves (r.IsGranted table)) Outside none
      (request table r) := by
  have hlocate : Follows (GatewayFlow.protocol (r.IsGranted table))
      (fun held d => held = none ∧ locate table r = .ok d) Outside none
      (ensure (locate table r)) := follows_ensure (fun d hd => ⟨rfl, hd⟩) fun _ _ => rfl
  refine hlocate.bind fun held d hd => ?_
  rcases hd with ⟨rfl, hd⟩
  obtain ⟨mount, key?⟩ := d
  cases hverb : Verb.ofMethod? r.method with
  | none => exact follows_throw rfl
  | some verb =>
    have hgrants : ∀ change, Destination.Grants ⟨mount, key?⟩ verb change →
        r.IsGranted table change :=
      fun change hchange => ⟨⟨mount, key?⟩, verb, hd, hverb, hchange⟩
    cases verb with
    | options => exact follows_pure ⟨rfl, trivial⟩
    | get | head | put | delete | mkcol | propfind =>
      cases key? with
      | none => exact onRoot_follows (d := ⟨mount, none⟩)
      | some key => exact onKey_follows hgrants rfl

end Serve

/-- Whatever its calls are answered, a request holds one session at a time, makes no changes but
those that it is granted, and in the end holds the session that its response needs, or none. -/
theorem serve_obeys (table : MountTable) (r : Request) :
    (serve table r).Obeys (GatewayFlow.protocol (r.IsGranted table))
      (Serve.Leaves (r.IsGranted table)) none := by
  rw [serve_eq]
  refine Flow.Obeys.bind (Serve.request_follows table r) fun held result hresult => ?_
  cases result with
  | error problem =>
    show Serve.Leaves _ held (Response.ofProblem problem).framed
    unfold Serve.Leaves
    rw [Response.framed_body]
    exact ⟨hresult, trivial⟩
  | ok response =>
    show Serve.Leaves _ held response.framed
    unfold Serve.Leaves
    rw [Response.framed_body]
    exact hresult

end Http

end DavGateway
