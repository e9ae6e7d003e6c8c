import DavGateway.Gateway.Start
import DavGateway.Proofs.Gateway.Serving
import DavGateway.Proofs.Http.Responses
import DavGateway.Proofs.Transfer.Download
import DavGateway.Proofs.Transfer.Listing

/-!
# Whole exchanges

In a whole exchange a request is answered and the body of the response is read to its end. What the
client gets is told here from how the request was served: a body that is there at once is handed
over, and one that needs its session is run in it before the session is closed.
-/

namespace DavGateway

/-- What a client gets: the status, the header fields, the chunks of the body, and the failure
that ended the body, if there was one. -/
structure Exchange where
  status : Nat
  headers : List (String × String)
  chunks : List Bytes
  failure : Option Failure := none
deriving DecidableEq, Repr

/-- A request is answered, and the body of the response is read to its end. There is no exchange
while the request waits for a slot. -/
def Engine.exchange {σ : Type} (client : StoreClient σ) (table : MountTable) (r : Http.Request) :
    OptionT (StateM (Engine σ)) Exchange := do
  let response ← handle client table r
  let reading : StateM (Engine σ) (List Bytes × Option Failure) := readBody client response.body
  let (chunks, failure) ← reading
  return ⟨response.status, response.headers, chunks, failure⟩

/-- The exchange for a request that is not served. -/
def Exchange.ofProblem (problem : Http.Problem) : Exchange where
  status := problem.status
  headers := (Http.Response.ofProblem problem).framed.headers
  chunks := if (Bytes.ofText problem.text).isEmpty then [] else [Bytes.ofText problem.text]

/-- A whole exchange with the gateway. -/
def Gateway.exchange (g : Gateway) (r : Http.Request) : Option Exchange × Gateway :=
  let (x, engine) := (Engine.exchange Clusters.client g.table r).run.run g.engine
  (x, { g with engine := engine })

theorem Http.Serve.isUnmodified_of_none {r : Http.Request}
    (h : r.header? "if-modified-since" = none) (stat : ObjectStat) :
    Http.Serve.isUnmodified r stat = false := by
  unfold Http.Serve.isUnmodified
  rw [h]
  rfl

namespace Engine

variable {e e' e₁ : Engine Clusters} {session : OpenSession} {p p' : MemoryPool}
variable {table : MountTable} {r : Http.Request} {mount : Mount} {verb : Http.Verb} {key : String}

/-- The exchange for a request. -/
def Answers (e : Engine Clusters) (table : MountTable) (r : Http.Request) (x : Exchange)
    (e' : Engine Clusters) : Prop := (exchange Clusters.client table r).run e = (some x, e')

theorem Serves.answers {result : Except Http.Problem Http.Response} {chunks : List Bytes}
    {failure : Option Failure} (h : e.Serves (Http.Serve.request table r).run result e₁)
    (hread : readBody Clusters.client (Http.Response.ofResult result).body e₁ =
      ((chunks, failure), e')) :
    e.Answers table r ⟨(Http.Response.ofResult result).status,
      (Http.Response.ofResult result).headers, chunks, failure⟩ e' := by
  have hserves : e.Serves (Http.serve table r) (Http.Response.ofResult result) e₁ := by
    rw [Http.serve_eq]
    exact h.bind (.done _ _)
  refine (run_bind_apply hserves).trans ?_
  show (match readBody Clusters.client (Http.Response.ofResult result).body e₁ with
    | (read, e) => (some (Exchange.mk _ _ read.1 read.2), e)) = _
  rw [hread]

/-- A body that is there at once is handed over in one chunk, if it is not empty. -/
theorem Serves.answers_whole {result : Except Http.Problem Http.Response} {bytes : Bytes}
    (h : e.Serves (Http.Serve.request table r).run result e')
    (hbody : (Http.Response.ofResult result).body = .whole bytes) :
    e.Answers table r ⟨(Http.Response.ofResult result).status,
      (Http.Response.ofResult result).headers, if bytes.isEmpty then [] else [bytes], none⟩ e' := by
  apply h.answers
  rw [hbody]
  rfl

theorem Serves.answers_empty {result : Except Http.Problem Http.Response}
    (h : e.Serves (Http.Serve.request table r).run result e')
    (hbody : (Http.Response.ofResult result).body = .whole []) :
    e.Answers table r ⟨(Http.Response.ofResult result).status,
      (Http.Response.ofResult result).headers, [], none⟩ e' := h.answers_whole hbody

theorem Serves.answers_problem {problem : Http.Problem}
    (h : e.Serves (Http.Serve.request table r).run (.error problem) e') :
    e.Answers table r (.ofProblem problem) e' := by
  have hanswers := h.answers_whole (Http.Response.framed_body _)
  have hstatus : (Http.Response.ofResult (.error problem)).status = problem.status :=
    Http.Response.framed_status _
  rwa [hstatus] at hanswers

/-- A body that needs its session is run in it, and then the session is closed. -/
theorem Serves.answers_held (hready : e.Ready) {response : Http.Response}
    {flow : SessionFlow Bytes (Except Failure Unit)} {chunks : List Bytes}
    (h : e.Serves (Http.Serve.request table r).run (.ok response) e₁)
    (hholds : e.Holds e₁ session p) (hbody : response.body = .streamed (some session) flow)
    (hruns : p.Runs e.store.now flow chunks (.ok ()) p') :
    ∃ e', e.Answers table r ⟨response.status, response.headers, chunks, none⟩ e'
      ∧ e.Settled e' session.pool p' := by
  rcases collect_apply hruns hholds.attends hholds.beside.now with ⟨e₂, hcollect, hattends, hbeside⟩
  rcases leave_apply hready (hholds.after hattends hbeside)
      with ⟨e', hleave, hready', hbeside', hpool⟩
  refine ⟨e', ?_, hready', hbeside', hpool⟩
  have hframed : Http.Response.ofResult (.ok response) = response :=
    Http.Response.framed_of_session (by rw [hbody]; rfl)
  have hread : readBody Clusters.client (Http.Response.ofResult (.ok response)).body e₁ =
      ((chunks, none), e') := by
    rw [hframed, hbody]
    exact (bind_apply hcollect).trans (bind_apply hleave)
  have hanswers := h.answers hread
  rwa [hframed] at hanswers

/-! ## Requests for a key -/

/-- A request with a verb that is permitted leads to a key of a mount. -/
structure AsksFor (table : MountTable) (r : Http.Request) (verb : Http.Verb) (mount : Mount)
    (key : String) : Prop where
  located : Http.Serve.locate table r = .ok ⟨mount, some key⟩
  method : Http.Verb.ofMethod? r.method = some verb
  permitted : verb.isPermitted mount.permissions
  valid : Names.checkKey key = .ok ()

/-- A request for a key that is no question about the allowed methods. -/
theorem Serves.request_key {result : Except Http.Problem Http.Response}
    (hask : AsksFor table r verb mount key) (hverb : verb ≠ .options)
    (h : e.Serves (Http.Serve.onKey r mount verb key).run result e') :
    e.Serves (Http.Serve.request table r).run result e' := by
  rw [Http.Serve.request_eq hask.located]
  simp only [hask.method]
  exact h

/-- A body that arrives as declared is stored. -/
theorem Mounted.put (h : e.Mounted mount p) (hask : AsksFor table r .put mount key)
    {frames : List Bytes} {declared : Option Nat} (hframes : r.body = frames.map .ok)
    (hdeclared : Http.Serve.declaredLength r = .ok declared)
    (hlength : ∀ length, declared = some length → length = frames.flatten.length)
    (hsmall : frames.flatten.length < Text.signedLimit) :
    ∃ x e' p', e.Answers table r x e' ∧ x.status = 201 ∧ e.Settled e' mount.ref p'
      ∧ Upload.Stored p p' key (some frames.flatten) := by
  rcases h.serves_onKey hask.permitted nofun hask.valid with ⟨session, e₂, hholds, -, hrest⟩
  rcases hholds.serves_put hask.valid hframes hdeclared hlength hsmall
      with ⟨e₃, p', hput, hholds', hstored⟩
  rcases (hrest hput).1 hholds' (by rintro _ ⟨⟩; rfl) with ⟨e', hserves, hsettled⟩
  have hanswers := (hserves.request_key hask nofun).answers_empty rfl
  exact ⟨_, e', p', hanswers, rfl, hsettled, hstored⟩

/-- An object that is there is removed. -/
theorem Mounted.delete (h : e.Mounted mount p) (hask : AsksFor table r .delete mount key)
    {object : MemoryObject} (hget : p.objects.get? key = some object) :
    ∃ x e', e.Answers table r x e' ∧ x.status = 200
      ∧ e.Settled e' mount.ref ⟨p.objects.erase key⟩ := by
  rcases h.serves_onKey hask.permitted nofun hask.valid with ⟨session, e₂, hholds, -, hrest⟩
  rcases hholds.serves_delete hget with ⟨e₃, hdelete, hholds'⟩
  rcases (hrest hdelete).1 hholds' (by rintro _ ⟨⟩; rfl) with ⟨e', hserves, hsettled⟩
  have hanswers := (hserves.request_key hask nofun).answers_empty rfl
  exact ⟨_, e', hanswers, rfl, hsettled⟩

/-- Only an upload does not need the object to be there. -/
theorem Mounted.missing (h : e.Mounted mount p) (hask : AsksFor table r verb mount key)
    (hget : p.objects.get? key = none) (hput : verb ≠ .put) (hmkcol : verb ≠ .mkcol)
    (hoptions : verb ≠ .options) :
    ∃ e', e.Answers table r (.ofProblem (.notFound ("object not found: " ++ key))) e'
      ∧ e.Settled e' mount.ref p := by
  rcases h.serves_onKey hask.permitted hmkcol hask.valid with ⟨session, e₂, hholds, -, hrest⟩
  have hmissing : e₂.Serves (Http.Serve.onObject r mount verb key session (statOf p key)).run
      _ e₂ := serves_missing e₂ hget hput
  rcases (hrest hmissing).1 hholds nofun with ⟨e', hserves, hsettled⟩
  exact ⟨e', (hserves.request_key hask hoptions).answers_problem, hsettled⟩

/-! ## Downloads -/

/-- An exchange tells about an object: it has not been changed, or this is its description. -/
structure Describes (x : Exchange) (r : Http.Request) (key : String) (stat : ObjectStat) :
    Prop where
  status : x.status = if Http.Serve.isUnmodified r stat then 304 else 200
  headers : x.headers = if Http.Serve.isUnmodified r stat then [("content-length", "0")]
    else Http.Serve.objectHeaders key stat

theorem Describes.of_objectResponse {stat : ObjectStat} {withBody : Bool} {chunks : List Bytes}
    {failure : Option Failure} : Describes ⟨
      (Http.Serve.objectResponse r session key stat withBody).framed.status,
      (Http.Serve.objectResponse r session key stat withBody).framed.headers, chunks, failure⟩
      r key stat := by
  unfold Http.Serve.objectResponse
  -- a body that is not sent has a length all the same, which the description gives
  cases hunmodified : Http.Serve.isUnmodified r stat with
  | true => exact ⟨by rw [hunmodified]; rfl, by rw [hunmodified]; rfl⟩
  | false =>
    cases withBody with
    | true => exact ⟨by rw [hunmodified]; rfl, by rw [hunmodified]; rfl⟩
    | false => exact ⟨by rw [hunmodified]; rfl, by rw [hunmodified]; rfl⟩

/-- An object that is there is described, without a body. -/
theorem Mounted.head (h : e.Mounted mount p) (hask : AsksFor table r .head mount key)
    {object : MemoryObject} (hget : p.objects.get? key = some object) :
    ∃ x e', e.Answers table r x e' ∧ Describes x r key object.stat
      ∧ x.chunks = [] ∧ e.Settled e' mount.ref p := by
  rcases h.serves_onKey hask.permitted nofun hask.valid with ⟨session, e₂, hholds, -, hrest⟩
  have hobject : e₂.Serves
      (Http.Serve.onObject r mount .head key session (statOf p key)).run
      (.ok (Http.Serve.objectResponse r session key object.stat false)) e₂ := by
    rw [statOf_of_some hget]
    exact .pure _ _
  have hbody : (Http.Serve.objectResponse r session key object.stat
      false).body = .whole [] := by
    unfold Http.Serve.objectResponse
    split <;> rfl
  rcases (hrest hobject).1 hholds (by rintro _ ⟨⟩; rw [hbody]; rfl) with ⟨e', hserves, hsettled⟩
  have hanswers := (hserves.request_key hask nofun).answers_empty
    ((Http.Response.framed_body _).trans hbody)
  exact ⟨_, e', hanswers, .of_objectResponse, rfl, hsettled⟩

/-- An object that has been changed is sent from a session that stays open. -/
theorem Mounted.serves_changed (h : e.Mounted mount p) (hask : AsksFor table r .get mount key)
    {object : MemoryObject} (hget : p.objects.get? key = some object)
    (hchanged : Http.Serve.isUnmodified r object.stat = false) :
    ∃ session e₁, e.Serves (Http.Serve.request table r).run (.ok ⟨200,
        Http.Serve.objectHeaders key object.stat, .streamed (some session)
          (Download.run Download.usualChunk key object.data.length).run⟩) e₁
      ∧ e.Holds e₁ session p ∧ session.pool = mount.ref := by
  rcases h.serves_onKey hask.permitted nofun hask.valid with ⟨session, e₁, hholds, href, hrest⟩
  have hobject : e₁.Serves (Http.Serve.onObject r mount .get key session (statOf p key)).run
      (.ok ⟨200, Http.Serve.objectHeaders key object.stat, .streamed (some session)
        (Download.run Download.usualChunk key object.data.length).run⟩) e₁ := by
    rw [statOf_of_some hget]
    simp only [Http.Serve.onObject, Http.Serve.objectResponse, hchanged, Bool.false_eq_true,
      if_false, if_true]
    exact .pure _ _
  have hserves := (hrest hobject).2 _ rfl rfl
  exact ⟨session, e₁, hserves.request_key hask nofun, hholds, href⟩

/-- An object that is there is described, and sent unless it has not been changed. -/
theorem Mounted.get (h : e.Mounted mount p) (hask : AsksFor table r .get mount key)
    {object : MemoryObject} (hget : p.objects.get? key = some object) :
    ∃ x e', e.Answers table r x e' ∧ Describes x r key object.stat
      ∧ (Http.Serve.isUnmodified r object.stat = false →
        x.chunks.flatten = object.data ∧ x.failure = none)
      ∧ e.Settled e' mount.ref p := by
  cases hunmodified : Http.Serve.isUnmodified r object.stat with
  | true =>
    rcases h.serves_onKey hask.permitted nofun hask.valid with ⟨session, e₂, hholds, -, hrest⟩
    have hobject : e₂.Serves
        (Http.Serve.onObject r mount .get key session (statOf p key)).run
        (.ok (Http.Serve.objectResponse r session key object.stat true)) e₂ := by
      rw [statOf_of_some hget]
      exact .pure _ _
    -- nothing is sent, so the session is closed at once
    have hbody : (Http.Serve.objectResponse r session key object.stat
        true).body = .whole [] := by
      rw [Http.Serve.objectResponse, hunmodified]
      rfl
    rcases (hrest hobject).1 hholds (by rintro _ ⟨⟩; rw [hbody]; rfl) with ⟨e', hserves, hsettled⟩
    have hanswers := (hserves.request_key hask nofun).answers_empty
      ((Http.Response.framed_body _).trans hbody)
    exact ⟨_, e', hanswers, .of_objectResponse, nofun, hsettled⟩
  | false =>
    rcases h.serves_changed hask hget hunmodified with ⟨session, e₁, hserves, hholds, href⟩
    rcases Download.run_runs e.store.now hget Download.usualChunk with ⟨chunks, hruns, hflatten⟩
    rcases hserves.answers_held h.ready hholds rfl hruns with ⟨e', hanswers, hsettled⟩
    have hdescribes : Describes ⟨200, Http.Serve.objectHeaders key object.stat, chunks, none⟩ r key
        object.stat := ⟨by rw [hunmodified]; rfl, by rw [hunmodified]; rfl⟩
    exact ⟨_, e', hanswers, hdescribes, fun _ => ⟨hflatten, rfl⟩, href ▸ hsettled⟩

/-! ## Requests that change no object -/

/-- What is allowed is told without asking the store. -/
theorem options_answers (e : Engine Clusters) {destination : Destination}
    (hlocate : Http.Serve.locate table r = .ok destination)
    (hmethod : Http.Verb.ofMethod? r.method = some .options) :
    ∃ x, e.Answers table r x e := by
  have hserves : e.Serves (Http.Serve.request table r).run
      (.ok (Http.Serve.optionsResponse destination.mount.permissions)) e := by
    rw [Http.Serve.request_eq hlocate]
    simp only [hmethod]
    exact .pure _ _
  exact ⟨_, hserves.answers_empty rfl⟩

/-- A document about one object needs no session. -/
theorem Mounted.propfind (h : e.Mounted mount p) (hask : AsksFor table r .propfind mount key)
    {object : MemoryObject} (hget : p.objects.get? key = some object) :
    ∃ x e', e.Answers table r x e' ∧ e.Settled e' mount.ref p := by
  rcases h.serves_onKey hask.permitted nofun hask.valid with ⟨session, e₂, hholds, -, hrest⟩
  have hdrain := Serves.ensure e₂ (Http.Serve.drain r.body)
  -- a body that fails to arrive is told to the client, and the object is not looked at
  cases hbody : Http.Serve.drain r.body with
  | error problem =>
    have hobject : e₂.Serves (Http.Serve.onObject r mount .propfind key session
        (statOf p key)).run (.error problem) e₂ := by
      rw [statOf_of_some hget]
      rw [hbody] at hdrain
      show e₂.Serves (ExceptT.run (Http.Serve.ensure (Http.Serve.drain r.body) >>= _)) _ e₂
      rw [hbody]
      exact hdrain.error_bind
    rcases (hrest hobject).1 hholds nofun with ⟨e', hserves, hsettled⟩
    exact ⟨_, e', (hserves.request_key hask nofun).answers_problem, hsettled⟩
  | ok =>
    let entry : Http.Entry := .object mount.base key object.stat
    have hobject : e₂.Serves (Http.Serve.onObject r mount .propfind key session
        (statOf p key)).run (.ok (.multistatus none (Http.Multistatus.single entry))) e₂ := by
      rw [statOf_of_some hget]
      rw [hbody] at hdrain
      show e₂.Serves (ExceptT.run (Http.Serve.ensure (Http.Serve.drain r.body) >>= _)) _ e₂
      rw [hbody]
      exact hdrain.ok_bind (.pure _ _)
    rcases (hrest hobject).1 hholds (by rintro _ ⟨⟩; rfl) with ⟨e', hserves, hsettled⟩
    exact ⟨_, e', (hserves.request_key hask nofun).answers rfl, hsettled⟩

/-- A pool is made, or not: the objects and the other pools stay. -/
theorem mkcol_answers (e : Engine Clusters) (hask : AsksFor table r .mkcol mount key) :
    ∃ x e', e.Answers table r x e' ∧ (e' = e ∨ ∃ ref,
      e' = { e with store := (e.store.createPool ref).2 }) := by
  let ref : PoolRef := ⟨mount.ref.cluster, Text.withoutEndSlashes key⟩
  -- the name is checked before the store is asked
  have hmake : ∃ result e', e.Serves (GatewayFlow.createPool ref) result e'
      ∧ (e' = e ∨ ∃ ref, e' = { e with store := (e.store.createPool ref).2 }) := by
    unfold GatewayFlow.createPool
    split
    · exact ⟨_, e, .done _ _, .inl rfl⟩
    · exact ⟨_, _, .ask rfl (.done _ _), .inr ⟨ref, rfl⟩⟩
  rcases hmake with ⟨result, e', hcreate, heffect⟩
  have hrequire := Serves.require .ofFailure hcreate
  have hkey : ∀ {result}, e.Serves (Http.Serve.makePool mount key).run result e' →
      e.Serves (Http.Serve.onKey r mount .mkcol key).run result e' := by
    intro result hpool
    unfold Http.Serve.onKey
    rw [if_neg (by simpa using hask.permitted), if_pos rfl]
    exact hpool
  cases result with
  | error failure =>
    have hpool : e.Serves (Http.Serve.makePool mount key).run (.error (.ofFailure failure)) e' :=
      hrequire.error_bind
    exact ⟨_, e', ((hkey hpool).request_key hask nofun).answers_problem, heffect⟩
  | ok =>
    have hpool : e.Serves (Http.Serve.makePool mount key).run (.ok { status := 201 }) e' :=
      hrequire.ok_bind (.pure _ _)
    exact ⟨_, e', ((hkey hpool).request_key hask nofun).answers_empty rfl, heffect⟩

/-! ## The root of a mount -/

/-- The document that lists the objects of a pool below a base. -/
def listing (base : String) (p : MemoryPool) : List Bytes :=
  Bytes.ofText Http.Multistatus.opening ::
    ((p.objects.entries.map fun entry => Bytes.ofText
      (Http.Entry.object base entry.1 entry.2.stat).text)
    ++ [Bytes.ofText Http.Multistatus.closing])

theorem listing_runs (base : String) (p : MemoryPool) {now : Int} :
    p.Runs now (Http.Multistatus.document
      (Listing.run.run.mapItems fun o => Http.Entry.object base o.key o.stat))
      (listing base p) (.ok ()) p := by
  have hentries : p.Runs now (Listing.run.run.mapItems fun o => Http.Entry.object base o.key o.stat)
      _ (.ok ()) p := (Listing.run_runs p).mapItems _
  have hparts := hentries.mapItems fun entry => Bytes.ofText entry.text
  simp only [List.map_map, Function.comp_def, Listing.listed] at hparts
  have hclosing : p.Runs now (.emit (Bytes.ofText Http.Multistatus.closing) (.done (.ok ())) :
      SessionFlow Bytes (Except Failure Unit)) [Bytes.ofText Http.Multistatus.closing]
      (.ok ()) p := .emit (.done _ _)
  -- the entries stand between the opening and the closing
  unfold Http.Multistatus.document listing
  apply MemoryPool.Runs.emit
  exact hparts.bind hclosing

/-- The members of the root are listed. -/
theorem Mounted.members (h : e.Mounted mount p)
    (hlocate : Http.Serve.locate table r = .ok ⟨mount, none⟩)
    (hmethod : Http.Verb.ofMethod? r.method = some .propfind)
    (hpermitted : mount.permissions.propfind) (hdepth : Http.Depth.ofRequest r = .ok .members)
    (hbody : Http.Serve.drain r.body = .ok ()) :
    ∃ x e', e.Answers table r x e' ∧ x.status = 207 ∧ x.chunks = listing mount.base p
      ∧ x.failure = none ∧ e.Settled e' mount.ref p := by
  rcases h.serves_enter with ⟨session, e₁, henter, hholds, href⟩
  let response : Http.Response := .multistatus (some session) (Http.Multistatus.document
    (Listing.run.run.mapItems fun o => Http.Entry.object mount.base o.key o.stat))
  have hserves : e.Serves (Http.Serve.request table r).run (.ok response) e₁ := by
    have hdepths := Serves.ensure e (Http.Depth.ofRequest r)
    have hdrain := Serves.ensure e (Http.Serve.drain r.body)
    rw [Http.Serve.request_eq hlocate]
    simp only [hmethod]
    unfold Http.Serve.onRoot
    rw [if_pos ⟨rfl, hpermitted⟩, hdepth, hbody]
    rw [hdepth] at hdepths
    rw [hbody] at hdrain
    exact hdepths.ok_bind (hdrain.ok_bind (henter.ok_bind (.pure _ _)))
  rcases hserves.answers_held h.ready hholds rfl (listing_runs mount.base p)
      with ⟨e', hanswers, hsettled⟩
  exact ⟨_, e', hanswers, rfl, rfl, rfl, href ▸ hsettled⟩

end Engine

end DavGateway
