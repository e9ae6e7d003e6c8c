import DavGateway.Gateway.Exchange
import DavGateway.Proofs.Http.Changes

/-!
# Calls that fail

When a call of a request fails, the request is refused, and what the call was for decides with which
status (`Http.Setback`); nothing is asked of the store after that. Only an upload goes on without
the object that it wants to replace. This holds whatever the other calls are answered
(`failures_refused`).
-/

namespace DavGateway

/-- The status that the kind of a failure stands for. -/
def Failure.status : Failure → Nat
  | .objectNotFound _ | .poolNotFound _ => 404
  | .poolExists _ => 409
  | .invalidRequest _ | .body _ => 400
  | .input _ | .configuration _ | .store _ | .allocation _ _ | .timedOut _ | .channelClosed _
  | .shortRead _ _ | .internal _ => 500

/-- The failure of a call of a request. -/
def GatewayCall.failure? : (call : GatewayCall) → call.Answer → Option Failure
  | .enter _ _, .error failure | .createPool _, .error failure => some failure
  | .within _ (.operate _), .error failure | .within _ .list, .error failure
  | .within _ (.advance _), .error failure => some failure
  | _, _ => none

/-- The rules for the calls of a request, as rules for the calls of a session of it. -/
def Flow.Protocol.inside {S : Type} (p : Flow.Protocol GatewayCall GatewayCall.Answer S)
    (session : OpenSession) : Flow.Protocol SessionCall SessionCall.Answer S where
  may place call := p.may place (.within session call)
  can place call answer := p.can place (.within session call) answer
  next place call answer := p.next place (.within session call) answer

namespace Http

open DavGateway.Flow (Follows follows_pure follows_throw)

theorem Problem.ofFailure_status (failure : Failure) :
    (ofFailure failure).status = failure.status := by
  cases failure <;> rfl

theorem Problem.ofFailure_allow (failure : Failure) : (ofFailure failure).allow = none := by
  cases failure <;> rfl

/-- The status with which a request is refused when a call of it fails. The verb decides only
whether an object may be missing, and what a removal is for. -/
inductive Setback (verb : Verb) : GatewayCall → Failure → Nat → Prop
  | entering {pool : PoolRef} {limit : Span} {failure : Failure} :
    Setback verb (.enter pool limit) failure failure.status
  | making {ref : PoolRef} {failure : Failure} :
    Setback verb (.createPool ref) failure failure.status
  | missing {session : OpenSession} {key : String} {failure : Failure}
    (hverb : verb ≠ .put) (hmissing : failure.isNotFound = true) :
    Setback verb (.within session (.operate (.stat key))) failure 404
  | looking {session : OpenSession} {key : String} {failure : Failure}
    (hmissing : failure.isNotFound = false) :
    Setback verb (.within session (.operate (.stat key))) failure 500
  | removing {session : OpenSession} {key : String} {failure : Failure} (hverb : verb = .delete) :
    Setback verb (.within session (.operate (.remove key))) failure 403
  | clearing {session : OpenSession} {key : String} {failure : Failure} (hverb : verb = .put)
    (hmissing : failure.isNotFound = false) :
    Setback verb (.within session (.operate (.remove key))) failure failure.status
  | writing {session : OpenSession} {key : String} {data : Bytes} {offset : Nat}
    {failure : Failure} (hverb : verb = .put) :
    Setback verb (.within session (.operate (.write key data offset))) failure failure.status

/-- An upload goes on if the object that it looks up or removes is not there. -/
def Tolerates (verb : Verb) : GatewayCall → Failure → Bool
  | .within _ (.operate (.stat _)), failure | .within _ (.operate (.remove _)), failure =>
    verb == .put && failure.isNotFound
  | _, _ => false

/-- The response refuses the request with a status, and tells nothing else. -/
def Response.Refuses (response : Response) (status : Nat) : Prop :=
  ∃ problem : Problem, problem.status = status ∧ problem.allow = none
    ∧ response = (ofProblem problem).framed

/-- The call that failed, and how: the first one that is not tolerated. After it a request does no
more than close its session. -/
def setbacks (verb : Verb) :
    Flow.Protocol GatewayCall GatewayCall.Answer (Option (GatewayCall × Failure)) where
  may setback call := setback = none ∨ ∃ session, call = .leave session
  can _ _ _ := True
  next setback call answer := setback.or <|
    (call.failure? answer).bind fun failure =>
      if Tolerates verb call failure then none else some (call, failure)

/-- The problem has the status for the call that failed. -/
def Problem.Reports (verb : Verb) (setback : Option (GatewayCall × Failure)) (problem : Problem) :
    Prop :=
  ∀ call failure, setback = some (call, failure) →
    Setback verb call failure problem.status ∧ problem.allow = none

namespace Serve

variable {α δ : Type} {verb : Verb} {session : OpenSession} {key : String} {r : Request}

/-! ## Sessions -/

/-- The failure has the status for the call that failed. -/
def Blamed (verb : Verb) (setback : Option (GatewayCall × Failure)) (failure : Failure) : Prop :=
  ∀ call blamed, setback = some (call, blamed) → Setback verb call blamed failure.status

/-- Nothing fails in the session for good, or its failure has the status for what failed. -/
def Blames (verb : Verb) (session : OpenSession) (x : SessionM Empty α) : Prop :=
  Follows ((setbacks verb).inside session) (fun setback _ => setback = none) (Blamed verb) none x

theorem Blames.bind {x : SessionM Empty α} {f : α → SessionM Empty δ} (hx : Blames verb session x)
    (hf : ∀ a, Blames verb session (f a)) : Blames verb session (x >>= f) := by
  refine Follows.bind hx ?_
  rintro _ a rfl
  exact hf a

theorem blames_pure (a : α) : Blames verb session (pure a) := follows_pure rfl

theorem blames_throw (failure : Failure) :
    Blames verb session (throw failure : SessionM Empty α) := follows_throw nofun

theorem write_blames (hverb : verb = .put) (data : Bytes) (offset : Nat) :
    Blames verb session (Session.write key data offset) := by
  refine ⟨.inl rfl, fun outcome _ => ?_⟩
  cases outcome with
  | ok reply => exact follows_pure rfl
  | error failure =>
    rintro _ _ ⟨⟩
    exact .writing hverb

theorem writeChunks_blames (hverb : verb = .put) (chunks : List Bytes) (offset : Nat) :
    Blames verb session (Upload.writeChunks key chunks offset) := by
  induction chunks generalizing offset with
  | nil => exact blames_pure _
  | cons chunk rest ih => exact (write_blames hverb chunk offset).bind fun _ => ih _

theorem receive_blames (hverb : verb = .put) (c : Nat) (declared : Option Nat)
    (frames : List (Except Failure Bytes)) (g : Upload.Progress) :
    Blames verb session (Upload.receive key c declared frames g) := by
  induction frames generalizing g with
  | nil => exact blames_pure _
  | cons frame rest ih =>
    cases frame with
    | error failure => exact blames_throw failure
    | ok data =>
      unfold Upload.receive
      simp only
      split
      · exact blames_throw _
      · exact (writeChunks_blames hverb _ _).bind fun _ => ih _

theorem finish_blames (hverb : verb = .put) (declared : Option Nat) (g : Upload.Progress) :
    Blames verb session (Upload.finish key declared g) := by
  unfold Upload.finish
  split
  · exact blames_throw _
  · split
    · exact (write_blames hverb _ _).bind fun _ => blames_pure _
    · exact blames_pure _

/-- That there is nothing to be removed before an upload is no setback. -/
theorem clear_blames (hverb : verb = .put) : Blames verb session (Upload.clear key) := by
  refine ⟨.inl rfl, fun outcome _ => ?_⟩
  cases outcome with
  | ok reply => exact follows_pure rfl
  | error failure =>
    have hnext : ((setbacks verb).inside session).next none (.operate (.remove key))
        (.error failure) = if failure.isNotFound then none
          else some (.within session (.operate (.remove key)), failure) := by
      subst hverb
      rfl
    rw [hnext]
    show Follows _ _ _ _
      (if failure.isNotFound then pure () else throw failure : SessionM Empty Unit)
    cases hmissing : failure.isNotFound with
    | true => exact blames_pure ()
    | false =>
      apply follows_throw
      rintro _ _ ⟨⟩
      exact .clearing hverb hmissing

theorem run_blames (hverb : verb = .put) (chunkSize : Nat) (request : UploadRequest) :
    Blames verb session (Upload.run chunkSize request) := by
  have hrest : Blames verb session (do
      let g ← Upload.receive request.key (max chunkSize 1) request.declared request.frames {}
      let g ← Upload.finish request.key request.declared g
      return ⟨g.received, g.chunks, request.replaces⟩ : SessionM Empty UploadReceipt) :=
    (receive_blames hverb _ _ _ _).bind fun _ => (finish_blames hverb _ _).bind fun _ =>
      blames_pure _
  unfold Upload.run
  split
  · exact (clear_blames hverb).bind fun _ => hrest
  · exact hrest

/-! ## Serving a request -/

/-- Nothing fails for good, or the request is over with the problem for what failed. -/
def Accounts (verb : Verb) (x : ServeM α) : Prop :=
  Follows (setbacks verb) (fun setback _ => setback = none)
    (fun setback problem => problem.Reports verb setback) none x

theorem Accounts.bind {x : ServeM α} {f : α → ServeM δ} (hx : Accounts verb x)
    (hf : ∀ a, Accounts verb (f a)) : Accounts verb (x >>= f) := by
  refine Follows.bind hx ?_
  rintro _ a rfl
  exact hf a

theorem accounts_pure (a : α) : Accounts verb (pure a) := follows_pure rfl

theorem accounts_throw (problem : Problem) : Accounts verb (throw problem : ServeM α) :=
  follows_throw nofun

theorem accounts_ensure (x : Except Problem α) : Accounts verb (ensure x) :=
  follows_ensure (fun _ _ => rfl) fun _ _ => nofun

theorem reports_ofFailure {setback : Option (GatewayCall × Failure)} {failure : Failure}
    (h : Blamed verb setback failure) : (Problem.ofFailure failure).Reports verb setback := by
  intro call blamed hsetback
  rw [Problem.ofFailure_status]
  exact ⟨h call blamed hsetback, Problem.ofFailure_allow failure⟩

theorem follows_inside {x : SessionM Empty α} {f : Failure → Problem}
    {ok : Option (GatewayCall × Failure) → α → Prop}
    {failed : Option (GatewayCall × Failure) → Failure → Prop}
    (hx : Follows ((setbacks verb).inside session) ok failed none x)
    (hf : ∀ setback failure, failed setback failure → (f failure).Reports verb setback) :
    Follows (setbacks verb) ok (fun setback problem => problem.Reports verb setback) none
      (within session f x) := by
  have hthrough : ∀ {flow : SessionFlow Empty (Except Failure α)} {setback} {post},
      flow.Obeys ((setbacks verb).inside session) post setback →
      (flow.through (GatewayCall.within session) fun _ answer => answer).Obeys
        (setbacks verb) post setback := by
    intro flow
    induction flow with
    | done result => exact id
    | emit item rest ih => exact item.elim
    | ask call resume ih =>
      intro setback post h
      exact ⟨h.1, fun answer hcan => ih answer (h.2 answer hcan)⟩
  refine (hthrough hx).bind fun setback result hresult => ?_
  cases result with
  | ok a => exact hresult
  | error failure => exact hf setback failure hresult

theorem enter_accounts (mount : Mount) : Accounts verb (enter mount) := by
  refine ⟨.inl rfl, fun answer _ => ?_⟩
  match answer with
  | .ok session => exact rfl
  | .error failure =>
    apply reports_ofFailure
    rintro _ _ ⟨⟩
    exact .entering

/-- Nothing has failed, or the object is missing and this is a setback. -/
def Misses (verb : Verb) (setback : Option (GatewayCall × Failure)) (found : Option ObjectStat) :
    Prop :=
  setback = none ∨ found = none ∧ verb ≠ .put
    ∧ ∀ call failure, setback = some (call, failure) → Setback verb call failure 404

theorem lookUp_misses :
    Follows (setbacks verb) (Misses verb) (fun setback problem => problem.Reports verb setback) none
      (lookUp session key) := by
  let call : GatewayCall := .within session (.operate (.stat key))
  have hstat : Follows ((setbacks verb).inside session)
      (fun setback (result : Except Failure ObjectStat) => setback = none
        ∨ ∃ failure, result = .error failure ∧ Tolerates verb call failure = false
          ∧ setback = some (call, failure))
      (fun _ _ => False) none (Session.attempt (Session.stat key) : SessionM Empty _) := by
    refine ⟨.inl rfl, fun outcome _ => ?_⟩
    cases outcome with
    | ok reply => cases reply <;> exact .inl rfl
    | error failure =>
      have hnext : ((setbacks verb).inside session).next none (.operate (.stat key))
          (.error failure) = if Tolerates verb call failure then none else some (call, failure) :=
        rfl
      rw [hnext]
      cases htolerates : Tolerates verb call failure with
      | true => exact .inl rfl
      | false => exact .inr ⟨failure, rfl, htolerates, rfl⟩
  refine (follows_inside hstat fun _ _ => False.elim).bind ?_
  intro setback result hresult
  cases result with
  | ok stat =>
    rcases hresult with hnone | ⟨failure, hfailure, -⟩
    · exact follows_pure (.inl hnone)
    · cases hfailure
  | error failure =>
    show Follows _ _ _ _ (if failure.isNotFound then _ else _ : ServeM (Option ObjectStat))
    rcases hresult with rfl | ⟨_, ⟨⟩, htolerates, rfl⟩
    · split
      · exact follows_pure (.inl rfl)
      · exact follows_throw nofun
    · split
      · next hmissing =>
        have hverb : verb ≠ .put := by
          rintro rfl
          simp [call, Tolerates, hmissing] at htolerates
        refine follows_pure (.inr ⟨rfl, hverb, ?_⟩)
        rintro _ _ ⟨⟩
        exact .missing hverb hmissing
      · next hmissing =>
        apply follows_throw
        rintro _ _ ⟨⟩
        exact ⟨.looking (by simpa using hmissing), rfl⟩

theorem upload_accounts (hverb : verb = .put) (replaces : Bool) :
    Accounts verb (upload r session key replaces) := by
  refine (accounts_ensure _).bind fun declared => ?_
  refine Accounts.bind ?_ fun _ => accounts_pure _
  exact follows_inside (run_blames hverb _ _) fun _ _ => reports_ofFailure

theorem remove_accounts : Accounts .delete
    (within session (fun failure => .forbidden failure.message) (Session.remove key)) := by
  have hremove : Follows ((setbacks .delete).inside session) (fun setback _ => setback = none)
      (fun setback failure => setback = some (.within session (.operate (.remove key)), failure))
      none (Session.remove key : SessionM Empty Unit) := by
    refine ⟨.inl rfl, fun outcome _ => ?_⟩
    cases outcome with
    | ok reply => exact follows_pure rfl
    | error failure => exact rfl
  refine follows_inside hremove ?_
  rintro _ failure rfl _ _ ⟨⟩
  exact ⟨.removing rfl, rfl⟩

theorem onObject_accounts {mount : Mount} {found : Option ObjectStat}
    {setback : Option (GatewayCall × Failure)} (h : Misses verb setback found) :
    Follows (setbacks verb) (fun setback _ => setback = none)
      (fun setback problem => problem.Reports verb setback) setback
      (onObject r mount verb key session found) := by
  cases found with
  | none =>
    show Follows _ _ _ _ (if verb = .put then _ else _ : ServeM Response)
    split
    · next hverb =>
      rcases h with rfl | ⟨-, hother, -⟩
      · exact upload_accounts hverb false
      · exact absurd hverb hother
    · refine follows_throw fun call failure hcall => ?_
      rcases h with rfl | ⟨-, -, hmissing⟩
      · cases hcall
      · exact ⟨hmissing call failure hcall, rfl⟩
  | some stat =>
    obtain rfl : setback = none := by
      rcases h with hnone | ⟨hfound, -⟩
      · exact hnone
      · cases hfound
    cases verb with
    | put => exact upload_accounts rfl true
    | delete => exact remove_accounts.bind fun _ => accounts_pure _
    | propfind => exact (accounts_ensure _).bind fun _ => accounts_pure _
    | get | head => exact accounts_pure _
    | options | mkcol => exact accounts_throw _

/-- To close the session is no setback, and leaves the one that there is. -/
theorem closing_accounts {body : ServeM Response} (hbody : Accounts verb body) :
    Accounts verb (closing session body) := by
  refine Flow.Obeys.bind hbody fun setback result hresult => ?_
  have hleave : Follows (setbacks verb) (fun setback _ => setback = none)
      (fun setback problem => problem.Reports verb setback) setback
      (ExceptT.mk ((GatewayFlow.call (.leave session)).bind fun _ => .done result)) := by
    refine ⟨.inr ⟨session, rfl⟩, fun answer _ => ?_⟩
    have hnext : (setbacks verb).next setback (.leave session) answer = setback := by
      cases setback <;> rfl
    rw [hnext]
    exact hresult
  cases result with
  | error problem => exact hleave
  | ok response =>
    simp only
    split
    · exact hresult
    · exact hleave

theorem makePool_accounts (mount : Mount) (key : String) : Accounts verb (makePool mount key) := by
  have hmake (ref : PoolRef) :
      Accounts verb (require .ofFailure (GatewayFlow.createPool ref)) := by
    unfold GatewayFlow.createPool
    split
    · exact reports_ofFailure nofun
    · refine ⟨.inl rfl, fun answer _ => ?_⟩
      match answer with
      | .ok () => exact rfl
      | .error failure =>
        apply reports_ofFailure
        rintro _ _ ⟨⟩
        exact .making
  exact (hmake _).bind fun _ => accounts_pure _

theorem onKey_accounts (mount : Mount) (key : String) :
    Accounts verb (onKey r mount verb key) := by
  unfold onKey
  split
  · exact accounts_throw _
  · split
    · exact makePool_accounts mount key
    · refine (accounts_ensure _).bind fun _ => ?_
      refine (enter_accounts mount).bind fun session => closing_accounts ?_
      exact lookUp_misses.bind fun setback found h => onObject_accounts h

theorem onRoot_accounts (mount : Mount) : Accounts verb (onRoot r mount verb) := by
  unfold onRoot
  split
  · refine (accounts_ensure _).bind fun depth => (accounts_ensure _).bind fun _ => ?_
    cases depth with
    | itself => exact accounts_pure _
    | members => exact (enter_accounts mount).bind fun _ => accounts_pure _
  · exact accounts_throw _

theorem request_accounts {table : MountTable} (hverb : Verb.ofMethod? r.method = some verb) :
    Accounts verb (request table r) := by
  cases hlocate : locate table r with
  | error problem =>
    unfold request
    rw [hlocate]
    exact accounts_throw problem
  | ok d =>
    obtain ⟨mount, key?⟩ := d
    rw [request_eq hlocate, hverb]
    cases verb with
    | options => exact accounts_pure _
    | get | head | put | delete | mkcol | propfind =>
      cases key? with
      | none => exact onRoot_accounts mount
      | some key => exact onKey_accounts mount key

end Serve

/-! ## Whole requests -/

variable {table : MountTable} {r : Request} {verb : Verb}

/-- Whatever its calls are answered, a request makes no call after a setback but the one that closes
its session, and is refused for the setback. -/
theorem serve_setbacks (hverb : Verb.ofMethod? r.method = some verb) :
    (serve table r).Obeys (setbacks verb)
      (fun setback response => ∀ call failure, setback = some (call, failure) →
        ∃ status, Setback verb call failure status ∧ response.Refuses status) none := by
  rw [serve_eq]
  refine Flow.Obeys.bind (Serve.request_accounts hverb) fun setback result hresult => ?_
  intro call failure hsetback
  cases result with
  | ok response =>
    obtain rfl : setback = none := hresult
    cases hsetback
  | error problem =>
    obtain ⟨hstatus, hallow⟩ := hresult call failure hsetback
    exact ⟨problem.status, hstatus, problem, rfl, hallow, rfl⟩

/-- A request with a method that is no verb makes no call. -/
theorem serve_of_no_verb (table : MountTable) (hverb : Verb.ofMethod? r.method = none) :
    ∃ response, serve table r = .done response := by
  rw [serve_eq]
  cases hlocate : Serve.locate table r with
  | error problem =>
    unfold Serve.request
    rw [hlocate]
    exact ⟨_, rfl⟩
  | ok d =>
    rw [Serve.request_eq hlocate, hverb]
    exact ⟨_, rfl⟩

/-- A setback stays the setback. -/
theorem after_setback (setback : GatewayCall × Failure) (events : List (Sigma GatewayCall.Answer)) :
    (setbacks verb).after (some setback) events = some setback := by
  induction events with
  | nil => rfl
  | cons event rest ih => exact ih

/-- In a request with a verb, a call that fails is tolerated, or the request is refused with the
status for it and does no more than close its session. -/
theorem failure_cases {before after : List (Sigma GatewayCall.Answer)} {call : GatewayCall}
    {answer : call.Answer} {failure : Failure} {response : Response}
    (hverb : Verb.ofMethod? r.method = some verb)
    (hreplay : (serve table r).replay (before ++ ⟨call, answer⟩ :: after) = some response)
    (hfails : call.failure? answer = some failure) :
    Tolerates verb call failure = true ∨ ∃ status, Setback verb call failure status
      ∧ response.Refuses status ∧ ∀ later ∈ after, ∃ session, later.1 = .leave session := by
  cases htolerates : Tolerates verb call failure with
  | true => exact .inl rfl
  | false =>
    right
    obtain ⟨hpost, hmay⟩ := (serve_setbacks hverb).replay (fun _ _ _ => trivial) hreplay
    -- nothing had failed before the call, since it does not close the session
    have hbefore : (setbacks verb).after none before = none := by
      rcases hmay before ⟨call, answer⟩ after rfl with hnone | ⟨session, hleave⟩
      · exact hnone
      · simp only at hleave
        subst hleave
        cases hfails
    have hnext : (setbacks verb).next none call answer = some (call, failure) := by
      show (none : Option (GatewayCall × Failure)).or ((call.failure? answer).bind fun failure =>
        if Tolerates verb call failure then none else some (call, failure)) = _
      rw [hfails]
      simp [htolerates]
    have hthen (later : List (Sigma GatewayCall.Answer)) :
        (setbacks verb).after none (before ++ ⟨call, answer⟩ :: later) = some (call, failure) := by
      have hsplit : (setbacks verb).after none (before ++ ⟨call, answer⟩ :: later) =
          (setbacks verb).after ((setbacks verb).next
            ((setbacks verb).after none before) call answer) later := by
        unfold Flow.Protocol.after
        rw [List.foldl_append, List.foldl_cons]
      rw [hsplit, hbefore, hnext, after_setback]
    obtain ⟨status, hstatus, hrefuses⟩ := hpost call failure (hthen after)
    refine ⟨status, hstatus, hrefuses, fun later hlater => ?_⟩
    obtain ⟨first, rest, rfl⟩ := List.append_of_mem hlater
    rcases hmay (before ++ ⟨call, answer⟩ :: first) later rest (by simp) with hnone | hleave
    · rw [hthen first] at hnone
      cases hnone
    · exact hleave

end Http

/-- Whatever a store is and does, the answer to a request comes from the calls that it made. And
whenever a call of a request fails, whatever the call and the failure are and whatever the other
calls are answered, an upload tolerates it for want of the object, or the request is refused with
the status for it and does no more than close its session. -/
theorem failures_refused (table : MountTable) (r : Http.Request) :
    (∀ {σ : Type} (client : StoreClient σ) (e e' : Engine σ) (response : Http.Response),
      (Engine.handle client table r).run e = (some response, e') →
      ∃ events, Flow.Plays (Engine.respond client) e events e'
        ∧ (Http.serve table r).replay events = some response)
    ∧ ∀ (before after : List (Sigma GatewayCall.Answer)) (call : GatewayCall)
        (answer : call.Answer) (failure : Failure) (response : Http.Response),
      (Http.serve table r).replay (before ++ ⟨call, answer⟩ :: after) = some response →
      call.failure? answer = some failure →
      ∃ verb, Http.Verb.ofMethod? r.method = some verb
        ∧ (Http.Tolerates verb call failure = true ∨ ∃ status, Http.Setback verb call failure status
          ∧ response.Refuses status ∧ ∀ later ∈ after, ∃ session, later.1 = .leave session) := by
  refine ⟨fun client e e' response h => Flow.exists_replay h, ?_⟩
  intro before after call answer failure response hreplay hfails
  cases hverb : Http.Verb.ofMethod? r.method with
  | none =>
    obtain ⟨response, hserve⟩ := Http.serve_of_no_verb table hverb
    rw [hserve] at hreplay
    cases before <;> cases hreplay
  | some verb => exact ⟨verb, rfl, Http.failure_cases hverb hreplay hfails⟩

/-- A mount that takes uploads. -/
def uploadTable : MountTable :=
  ⟨[⟨"/m", ⟨0, "m"⟩, 1, ⟨true, false, false, false⟩, .ofSeconds 4⟩], none⟩

/-- The upload of a short object. -/
def shortUpload : Http.Request := { method := "PUT", path := "/m/k", body := [.ok [7, 8]] }

/-- The session of the upload. -/
def uploadSession : OpenSession := ⟨0, none, ⟨0, "m"⟩, .ofSeconds 4⟩

/-- A session is opened, and the object is not there. -/
def uploadBegun : List (Sigma GatewayCall.Answer) :=
  [⟨.enter ⟨0, "m"⟩ (.ofSeconds 4), .ok uploadSession⟩,
    ⟨.within uploadSession (.operate (.stat "k")), .error (.objectNotFound "k")⟩]

/-- The chunk that the upload writes. -/
def uploadWrite : GatewayCall := .within uploadSession (.operate (.write "k" [7, 8] 0))

/-- The pool is gone when the chunk is written. -/
theorem failures_refused_pool_gone :
    ∃ response, (Http.serve uploadTable shortUpload).replay (uploadBegun ++
        ⟨uploadWrite, .error (.poolNotFound "m")⟩ :: [⟨.leave uploadSession, ()⟩]) = some response
      ∧ response.Refuses 404 := by
  have hstatus : ((Http.serve uploadTable shortUpload).replay (uploadBegun ++
      ⟨uploadWrite, .error (.poolNotFound "m")⟩ :: [⟨.leave uploadSession, ()⟩])).map
        (fun response => response.status) = some 404 := by decide +kernel
  obtain ⟨response, hreplay, -⟩ := Option.map_eq_some_iff.mp hstatus
  obtain ⟨verb, -, hfailure⟩ := (failures_refused uploadTable shortUpload).2 uploadBegun _
    uploadWrite _ (.poolNotFound "m") response hreplay rfl
  refine ⟨response, hreplay, ?_⟩
  rcases hfailure with htolerates | ⟨status, hsetback, hrefuses, -⟩
  · cases htolerates
  · cases hsetback
    exact hrefuses

/-- An upload whose chunk cannot be written need not be answered 500: the failure may stand for
another status. -/
theorem failed_write_not_internal :
    ∃ (session : OpenSession) (key : String) (data : Bytes) (offset : Nat) (failure : Failure)
      (before after : List (Sigma GatewayCall.Answer)) (response : Http.Response),
      (Http.serve uploadTable shortUpload).replay (before ++
        ⟨.within session (.operate (.write key data offset)), .error failure⟩ :: after) =
          some response
      ∧ response.status ≠ 500 := by
  have hstatus : ((Http.serve uploadTable shortUpload).replay (uploadBegun ++
      ⟨.within uploadSession (.operate (.write "k" [7, 8] 0)), .error (.poolNotFound "m")⟩
        :: [⟨.leave uploadSession, ()⟩])).map (fun response => response.status) = some 404 := by
    decide +kernel
  obtain ⟨response, hreplay, hresponse⟩ := Option.map_eq_some_iff.mp hstatus
  refine ⟨uploadSession, "k", [7, 8], 0, .poolNotFound "m", uploadBegun, _, response, hreplay, ?_⟩
  omega

end DavGateway
