import DavGateway.Proofs.Http.Changes
import DavGateway.Proofs.Transfer.Rules

/-!
# Requests that work on an object

A request for an object opens a session on its pool, works in it by rules for its operations, and
closes it (`Stage.protocol`). What the rules say about the place in which the work ends is so known
of the response: an upload that is answered 201 has written its whole body (`Http.put_obeys`), and a
download that is answered 200 will hand out as many bytes as it was told (`Http.get_obeys`).
-/

namespace DavGateway

namespace Http

/-- Where a request stands that works on one pool: no session is open yet, or the work stands at a
place, or the session was closed there. -/
inductive Stage (S : Type) where
  | before
  | inside (session : OpenSession) (place : S)
  | after (place : S)

namespace Stage

variable {S α : Type}

/-- The session that is held. -/
def held : Stage S → Option OpenSession
  | .inside session _ => some session
  | .before | .after _ => none

/-- The place of the work. -/
def place? : Stage S → Option S
  | .inside _ place | .after place => some place
  | .before => none

/-- Rules for operations, as rules for the calls of a request that begins at the place `start` on
the pool. -/
def protocol (q : Flow.Protocol Operation (fun _ => Outcome) S) (ref : PoolRef) (start : S) :
    Flow.Protocol GatewayCall GatewayCall.Answer (Stage S) where
  may
    | .before, .enter pool _ => pool = ref
    | .inside session place, .within session' (.operate operation) =>
      session' = session ∧ q.may place operation
    | .inside session _, .leave session' => session' = session
    | _, _ => False
  can
    | .inside _ place, .within _ (.operate operation), outcome => q.can place operation outcome
    | _, _, _ => True
  next
    | .before, .enter _ _, .ok session => .inside session start
    | .inside session place, .within _ (.operate operation), outcome =>
      .inside session (q.next place operation outcome)
    | .inside _ place, .leave _, _ => .after place
    | stage, _, _ => stage

/-- The session is open, and `P` holds of the place of the work and of what has come of it. -/
def Inside (session : OpenSession) (P : S → α → Prop) (stage : Stage S) (a : α) : Prop :=
  ∃ place, stage = .inside session place ∧ P place a

/-- `P` holds of the place of the work and of the response, which needs no other session. -/
def Answers (session : OpenSession) (P : S → Response → Prop) (place : S) (response : Response) :
    Prop :=
  P place response ∧ ∀ needed, response.body.session? = some needed → needed = session

/-- `P` holds of the place in which the work has ended and of the response, and the session that the
response needs is held, and no other. -/
def Leaves (P : S → Response → Prop) (stage : Stage S) (response : Response) : Prop :=
  ∃ place, P place response ∧ stage.place? = some place ∧ stage.held = response.body.session?

end Stage

open DavGateway.Flow (Follows follows_pure follows_throw)

/-- The request is refused. -/
def Problem.Refuses {S : Type} (_ : S) (problem : Problem) : Prop := 400 ≤ problem.status

namespace Problem

theorem refuses_mk {S : Type} {stage : S} {status : Nat} {message : String} {allow : Option String}
    (h : 400 ≤ status) : Refuses stage ⟨status, message, allow⟩ := h

theorem refuses_ofFailure {S : Type} (stage : S) (failure : Failure) :
    Refuses stage (ofFailure failure) := by
  unfold ofFailure
  split <;> exact refuses_mk (by decide)

end Problem

namespace Serve

variable {S α : Type} {q : Flow.Protocol Operation (fun _ => Outcome) S} {ref : PoolRef} {start : S}
variable {session : OpenSession} {place : S} {ok : S → α → Prop}

/-! ## Sessions -/

theorem enter_stage (q : Flow.Protocol Operation (fun _ => Outcome) S) (start : S) (mount : Mount) :
    Follows (Stage.protocol q mount.ref start) (fun stage session => stage = .inside session start)
      (fun stage problem => stage.held = none ∧ problem.Refuses stage) .before (enter mount) := by
  refine ⟨rfl, ?_⟩
  intro answer _
  match answer with
  | .ok session => exact rfl
  | .error failure => exact ⟨rfl, Problem.refuses_ofFailure _ failure⟩

/-- What is done in the session goes by the rules for its operations. -/
theorem within_stage {x : SessionM Empty α} {failed : S → Failure → Prop}
    (hx : Follows q.session ok failed place x) :
    Follows (Stage.protocol q ref start) (Stage.Inside session ok)
      (Stage.Inside session Problem.Refuses) (.inside session place)
      (within session .ofFailure x) := by
  have hthrough : ∀ {flow : SessionFlow Empty (Except Failure α)} {place : S} {post},
      flow.Obeys q.session post place →
      (flow.through (GatewayCall.within session) fun _ answer => answer).Obeys
        (Stage.protocol q ref start) (Stage.Inside session post) (.inside session place) := by
    intro flow
    induction flow with
    | done result => exact fun h => ⟨_, rfl, h⟩
    | emit item rest ih => exact item.elim
    | ask call resume ih =>
      intro place post h
      cases call with
      | operate operation => exact ⟨⟨rfl, h.1⟩, fun answer hcan => ih answer (h.2 answer hcan)⟩
      | list | advance next => exact h.1.elim
  refine (hthrough hx).bind ?_
  rintro _ result ⟨place, rfl, hresult⟩
  cases result with
  | ok a => exact ⟨place, rfl, hresult⟩
  | error failure => exact ⟨place, rfl, Problem.refuses_ofFailure _ failure⟩

/-- A session that the response does not need is closed where the work has ended. -/
theorem closing_stage {stage : Stage S} {P : S → Response → Prop} {body : ServeM Response}
    (hbody : Follows (Stage.protocol q ref start) (Stage.Inside session (Stage.Answers session P))
      (Stage.Inside session Problem.Refuses) stage body) :
    Follows (Stage.protocol q ref start) (Stage.Leaves P)
      (fun stage problem => stage.held = none ∧ problem.Refuses stage) stage
      (closing session body) := by
  refine Flow.Obeys.bind hbody ?_
  rintro stage result hresult
  cases result with
  | error problem =>
    obtain ⟨place, rfl, hproblem⟩ := hresult
    exact ⟨rfl, fun _ _ => ⟨rfl, hproblem⟩⟩
  | ok response =>
    obtain ⟨place, rfl, hresponse, hneeded⟩ := hresult
    simp only
    split
    · next hneeds => exact ⟨place, hresponse, rfl, (beq_iff_eq.mp hneeds).symm⟩
    · next hneeds =>
      refine ⟨rfl, fun _ _ => ⟨place, hresponse, rfl, ?_⟩⟩
      cases hsession : response.body.session? with
      | none => rfl
      | some needed =>
        rw [hneeded needed hsession] at hsession
        exact absurd (beq_iff_eq.mpr hsession) hneeds

variable {r : Request} {mount : Mount} {key : String} {verb : Verb} {table : MountTable}

theorem checkKey_refuses {problem : Problem} {stage : S}
    (h : (Names.checkKey key).mapError Problem.ofFailure = .error problem) :
    problem.Refuses stage := by
  cases hkey : Names.checkKey key with
  | ok =>
    rw [hkey] at h
    cases h
  | error failure =>
    rw [hkey] at h
    cases h
    exact Problem.refuses_ofFailure stage failure

/-- A request for a key opens a session, looks the object up, and closes the session unless the
response needs it. -/
theorem onKey_stage {P : S → Response → Prop}
    (hwork : ∀ session, Follows (Stage.protocol q mount.ref start)
      (Stage.Inside session (Stage.Answers session P)) (Stage.Inside session Problem.Refuses)
      (.inside session start) (do
        let stat ← lookUp session key
        onObject r mount verb key session stat)) (hverb : verb ≠ .mkcol) :
    Follows (Stage.protocol q mount.ref start) (Stage.Leaves P)
      (fun stage problem => stage.held = none ∧ problem.Refuses stage) .before
      (onKey r mount verb key) := by
  unfold onKey
  split
  · exact follows_throw ⟨rfl, Problem.refuses_mk (by decide)⟩
  · have hcheck : Follows (Stage.protocol q mount.ref start) (fun stage _ => stage = .before)
        (fun stage problem => stage.held = none ∧ problem.Refuses stage) .before
        (ensure ((Names.checkKey key).mapError .ofFailure)) := by
      refine follows_ensure (fun _ _ => rfl) ?_
      intro problem hproblem
      exact ⟨rfl, checkKey_refuses hproblem⟩
    refine hcheck.bind ?_
    rintro _ _ rfl
    refine (enter_stage q start mount).bind ?_
    rintro _ session rfl
    exact closing_stage (hwork session)

/-- What is known of the response to a request for a key is known of the response that is sent,
which has a length. -/
theorem serve_stage {P : S → Response → Prop}
    (hlocated : locate table r = .ok ⟨mount, some key⟩)
    (hmethod : Verb.ofMethod? r.method = some verb) (hverb : verb ≠ .options)
    (hframed : ∀ place response, P place response → P place response.framed)
    (hkey : Follows (Stage.protocol q mount.ref start) (Stage.Leaves P)
      (fun stage problem => stage.held = none ∧ problem.Refuses stage) .before
      (onKey r mount verb key)) :
    (serve table r).Obeys (Stage.protocol q mount.ref start)
      (fun stage response => Stage.Leaves P stage response
        ∨ stage.held = none ∧ response.body.session? = none ∧ 400 ≤ response.status) .before := by
  have hrequest : request table r = onKey r mount verb key := by
    rw [request_eq hlocated, hmethod]
    cases verb <;> first | rfl | exact absurd rfl hverb
  rw [serve_eq, hrequest]
  refine Flow.Obeys.bind hkey ?_
  intro stage result hresult
  cases result with
  | error problem =>
    right
    refine ⟨hresult.1, ?_, ?_⟩
    · show (Response.ofProblem problem).framed.body.session? = none
      rw [Response.framed_body]
      rfl
    · show 400 ≤ (Response.ofProblem problem).framed.status
      rw [Response.framed_status]
      exact hresult.2
  | ok response =>
    left
    obtain ⟨place, hresponse, hplace, hheld⟩ := hresult
    refine ⟨place, hframed place response hresponse, hplace, ?_⟩
    show stage.held = response.framed.body.session?
    rw [Response.framed_body]
    exact hheld

/-! ## Uploads -/

variable {bytes : Bytes}

/-- What is looked up is there and will be removed, or is not there and will be written. -/
theorem lookUp_put :
    Follows (Stage.protocol (Upload.rules key bytes) ref .looking)
      (Stage.Inside session fun place found =>
        place = if found.isSome then .clearing else .writing none)
      (Stage.Inside session Problem.Refuses) (.inside session .looking) (lookUp session key) := by
  have hstat : Follows (Upload.rules key bytes).session
      (fun place (result : Except Failure ObjectStat) =>
        (∀ stat, result = .ok stat → place = .clearing)
          ∧ ∀ failure, result = .error failure → failure.isNotFound → place = .writing none)
      (fun _ _ => True) .looking (Session.attempt (Session.stat key) : SessionM Empty _) := by
    refine ⟨rfl, ?_⟩
    intro outcome _
    cases outcome with
    | ok reply =>
      cases reply with
      | stat s =>
        refine ⟨fun _ _ => rfl, ?_⟩
        rintro _ ⟨⟩
      | done | data bytes =>
        constructor
        · rintro _ ⟨⟩
        · rintro _ ⟨⟩ hmissing
          cases hmissing
    | error failure =>
      constructor
      · rintro _ ⟨⟩
      rintro _ ⟨⟩ hmissing
      show (if failure.isNotFound then Upload.Place.writing none else .refused) = .writing none
      rw [if_pos hmissing]
  refine (within_stage hstat).bind ?_
  rintro _ result ⟨place, rfl, hresult⟩
  cases result with
  | ok stat => exact follows_pure ⟨place, rfl, hresult.1 stat rfl⟩
  | error failure =>
    show Follows _ _ _ _ (if failure.isNotFound then _ else _ : ServeM (Option ObjectStat))
    split
    · next hmissing => exact follows_pure ⟨place, rfl, hresult.2 failure rfl hmissing⟩
    · exact follows_throw ⟨place, rfl, Problem.refuses_mk (by decide)⟩

theorem declaredLength_refuses {problem : Problem} {stage : S}
    (h : declaredLength r = .error problem) : problem.Refuses stage := by
  unfold declaredLength at h
  split at h
  · cases h
  · split at h
    · cases h
    · cases h
      exact Problem.refuses_mk (by decide)

/-- The frames of the body, as an upload takes them, bring the bytes of the request. -/
theorem bytesOf_frames (r : Request) :
    Upload.bytesOf (r.body.map fun frame => frame.mapError Failure.body) = r.bytes := by
  unfold Upload.bytesOf Request.bytes
  rw [List.flatMap_map]
  congr 1
  funext frame
  cases frame <;> rfl

/-- An upload that ends well has written the body of its request. -/
theorem upload_put (replaces : Bool) :
    Follows (Stage.protocol (Upload.rules key r.bytes) ref .looking)
      (Stage.Inside session fun place response =>
        place = .writing (some r.bytes.length) ∧ response.body.session? = none)
      (Stage.Inside session Problem.Refuses)
      (.inside session (if replaces then .clearing else .writing none))
      (upload r session key replaces) := by
  have hdeclared : Follows (Stage.protocol (Upload.rules key r.bytes) ref .looking)
      (fun stage _ => stage = .inside session (if replaces then .clearing else .writing none))
      (Stage.Inside session Problem.Refuses)
      (.inside session (if replaces then .clearing else .writing none))
      (ensure (declaredLength r)) :=
    follows_ensure (fun _ _ => rfl) fun _ hproblem => ⟨_, rfl, declaredLength_refuses hproblem⟩
  refine hdeclared.bind ?_
  rintro _ declared rfl
  have hrun := Upload.run_follows key (r.body.map fun frame => frame.mapError Failure.body) declared
    Upload.usualChunk replaces
  rw [bytesOf_frames] at hrun
  refine (within_stage hrun).bind ?_
  rintro _ receipt ⟨place, rfl, hplace⟩
  exact follows_pure ⟨place, rfl, hplace, rfl⟩

/-- The work of an upload ends when the body of the request was written. -/
theorem onObject_put (r : Request) (mount : Mount) (key : String) (session : OpenSession) :
    Follows (Stage.protocol (Upload.rules key r.bytes) mount.ref .looking)
      (Stage.Inside session (Stage.Answers session fun place response =>
        place = .writing (some r.bytes.length) ∧ response.body.session? = none))
      (Stage.Inside session Problem.Refuses) (.inside session .looking) (do
        let stat ← lookUp session key
        onObject r mount .put key session stat) := by
  refine lookUp_put.bind ?_
  rintro _ found ⟨place, rfl, rfl⟩
  have hupload : Follows (Stage.protocol (Upload.rules key r.bytes) mount.ref .looking)
      (Stage.Inside session fun place response =>
        place = .writing (some r.bytes.length) ∧ response.body.session? = none)
      (Stage.Inside session Problem.Refuses)
      (.inside session (if found.isSome then .clearing else .writing none))
      (onObject r mount .put key session found) := by
    cases found with
    | none => exact upload_put false
    | some stat => exact upload_put true
  refine hupload.mono ?_ fun _ _ h => h
  rintro stage response ⟨place, rfl, hplace, hnone⟩
  refine ⟨place, rfl, ⟨hplace, hnone⟩, ?_⟩
  rw [hnone]
  exact nofun

/-! ## Downloads -/

/-- An object that is looked up has the length of its bytes. -/
theorem lookUp_get :
    Follows (Stage.protocol (Download.rules key bytes) ref ())
      (Stage.Inside session fun _ found => ∀ stat, found = some stat → stat.size = bytes.length)
      (Stage.Inside session Problem.Refuses) (.inside session ()) (lookUp session key) := by
  have hstat : Follows (Download.rules key bytes).session
      (fun _ (result : Except Failure ObjectStat) =>
        ∀ stat, result = .ok stat → stat.size = bytes.length)
      (fun _ _ => True) () (Session.attempt (Session.stat key) : SessionM Empty _) := by
    refine ⟨.inl rfl, ?_⟩
    intro outcome hcan
    rcases hcan with htakes | ⟨failure, rfl, -⟩
    · cases htakes with
      | stat hsize =>
        rintro stat ⟨⟩
        exact hsize
    · exact nofun
  refine (within_stage hstat).bind ?_
  rintro _ result ⟨⟨⟩, rfl, hresult⟩
  cases result with
  | ok stat =>
    refine follows_pure ⟨(), rfl, ?_⟩
    rintro _ ⟨⟩
    exact hresult stat rfl
  | error failure =>
    show Follows _ _ _ _ (if failure.isNotFound then _ else _ : ServeM (Option ObjectStat))
    split
    · exact follows_pure ⟨(), rfl, nofun⟩
    · exact follows_throw ⟨(), rfl, Problem.refuses_mk (by decide)⟩

/-- The response with the object needs the session, in which it will be downloaded. -/
def Downloads (key : String) (bytes : Bytes) (response : Response) : Prop :=
  response.status = 200 → ∃ session, response.body =
    .streamed (some session) (Download.run Download.usualChunk key bytes.length).run

theorem onObject_get (r : Request) (mount : Mount) (key : String) (bytes : Bytes)
    (session : OpenSession) :
    Follows (Stage.protocol (Download.rules key bytes) mount.ref ())
      (Stage.Inside session (Stage.Answers session fun _ response =>
        Downloads key bytes response))
      (Stage.Inside session Problem.Refuses) (.inside session ()) (do
        let stat ← lookUp session key
        onObject r mount .get key session stat) := by
  refine lookUp_get.bind ?_
  rintro _ found ⟨⟨⟩, rfl, hfound⟩
  cases found with
  | none => exact follows_throw ⟨(), rfl, Problem.refuses_mk (by decide)⟩
  | some stat =>
    have hsize := hfound stat rfl
    refine follows_pure ⟨(), rfl, ?_⟩
    unfold objectResponse
    split
    · exact ⟨nofun, nofun⟩
    · refine ⟨fun _ => ⟨session, ?_⟩, ?_⟩
      · rw [← hsize]
        rfl
      · rintro needed ⟨⟩
        rfl

end Serve

/-! ## Whole requests -/

variable {table : MountTable} {r : Request} {mount : Mount} {key : String}

/-- A request for an upload holds no session in the end. If it is answered 201 then its whole body
was written. -/
theorem put_obeys (hlocated : Serve.locate table r = .ok ⟨mount, some key⟩)
    (hmethod : Verb.ofMethod? r.method = some .put) :
    (serve table r).Obeys (Stage.protocol (Upload.rules key r.bytes) mount.ref .looking)
      (fun stage response => stage.held = none ∧ response.body.session? = none
        ∧ (response.status = 201 → stage.place? = some (.writing (some r.bytes.length))))
      .before := by
  have hkey := Serve.onKey_stage (Serve.onObject_put r mount key) nofun
  refine (Serve.serve_stage hlocated hmethod nofun ?_ hkey).mono ?_
  · rintro place response ⟨hplace, hnone⟩
    rw [Response.framed_body]
    exact ⟨hplace, hnone⟩
  · rintro stage response (⟨place, ⟨rfl, hnone⟩, hplace, hheld⟩ | ⟨hheld, hnone, hstatus⟩)
    · exact ⟨hheld.trans hnone, hnone, fun _ => hplace⟩
    · exact ⟨hheld, hnone, fun h => by omega⟩

/-- A request for a download holds the session that its response needs in the end. If it is answered
200 then the response needs a session, in which as many bytes will be downloaded as there are. -/
theorem get_obeys (bytes : Bytes) (hlocated : Serve.locate table r = .ok ⟨mount, some key⟩)
    (hmethod : Verb.ofMethod? r.method = some .get) :
    (serve table r).Obeys (Stage.protocol (Download.rules key bytes) mount.ref ())
      (fun stage response => stage.held = response.body.session?
        ∧ Serve.Downloads key bytes response) .before := by
  have hkey := Serve.onKey_stage (Serve.onObject_get r mount key bytes) nofun
  refine (Serve.serve_stage hlocated hmethod nofun ?_ hkey).mono ?_
  · intro place response hresponse
    unfold Serve.Downloads
    rw [Response.framed_body, Response.framed_status]
    exact hresponse
  · rintro stage response (⟨place, hresponse, -, hheld⟩ | ⟨hheld, hnone, hstatus⟩)
    · exact ⟨hheld, hresponse⟩
    · exact ⟨hheld.trans hnone.symm, fun h => by omega⟩

end Http

end DavGateway
