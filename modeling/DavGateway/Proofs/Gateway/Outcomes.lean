import DavGateway.Proofs.Gateway.Visits
import DavGateway.Proofs.Http.Stages

/-!
# What a visit comes to

While operations are carried out in time, what a visit through a mount is answered and what it
leaves in the pool of the mount depend on the request, on the pool and on the date alone
(`Visit.Comes`, `Visit.exists_comes`), and not on slots, sessions, other pools or what was asked
before. What is sent of an object does not even depend on the mount (`Visit.exists_comes_get`).
-/

namespace DavGateway

theorem Http.Response.session?_of_error (problem : Http.Problem) (response : Http.Response)
    (h : (.error problem : Except Http.Problem Http.Response) = .ok response) :
    response.body.session? = none := by
  cases h

theorem Http.Response.session?_of_ok {answer : Http.Response} (hnone : answer.body.session? = none)
    (response : Http.Response)
    (h : (.ok answer : Except Http.Problem Http.Response) = .ok response) :
    response.body.session? = none := by
  cases h
  exact hnone

theorem Http.Response.session?_ofResult {result : Except Http.Problem Http.Response}
    (h : ∀ response, result = .ok response → response.body.session? = none) :
    (Http.Response.ofResult result).body.session? = none := by
  cases result with
  | ok response => exact (congrArg _ (Http.Response.framed_body response)).trans (h response rfl)
  | error problem => exact congrArg _ (Http.Response.framed_body (.ofProblem problem))

/-- What a client gets that reads a response as far as it does. -/
def Exchange.ofRead (response : Http.Response) (read : List Bytes × Option Failure) : Exchange :=
  ⟨response.status, response.headers, read.1, read.2⟩

namespace Engine

variable {e e' e₁ : Engine Clusters} {session : OpenSession} {p p' p'' : MemoryPool} {now : Int}
variable {table : MountTable} {r : Http.Request} {mount : Mount} {verb : Http.Verb} {key : String}

/-! ## Reading what is answered -/

/-- What a run hands out at first, a session hands out that is given up after some items. -/
theorem collectUpTo_apply {β α : Type} {flow : SessionFlow β α} {items : List β} {result : α}
    (hruns : p.Runs now flow items result p') (limit : Nat) :
    ∃ collected p'', ∀ {e : Engine Clusters} {session : OpenSession}, e.Attends session p →
      e.store.now = now → ∃ e', flow.collectUpTo (answer Clusters.client session) limit e =
        (collected, e') ∧ e'.Attends session p'' ∧ e.Beside e' session.pool := by
  induction hruns generalizing limit with
  | done p result =>
    cases limit with
    | zero => exact ⟨([], none), p, fun {e session} h _ => ⟨e, rfl, h, .refl e session.pool⟩⟩
    | succ limit =>
      exact ⟨([], some result), p, fun {e session} h _ => ⟨e, rfl, h, .refl e session.pool⟩⟩
  | @emit p _ item _ _ _ hrest ih =>
    cases limit with
    | zero => exact ⟨([], none), p, fun {e session} h _ => ⟨e, rfl, h, .refl e session.pool⟩⟩
    | succ limit =>
      obtain ⟨collected, p'', hcollects⟩ := ih limit
      refine ⟨(item :: collected.1, collected.2), p'', fun {e session} h hnow => ?_⟩
      obtain ⟨e', hcollect, hattends, hbeside⟩ := hcollects h hnow
      exact ⟨e', by rw [Flow.collectUpTo, bind_apply hcollect]; rfl, hattends, hbeside⟩
  | @ask p _ call resume _ _ hsmall hrest ih =>
    cases limit with
    | zero => exact ⟨([], none), p, fun {e session} h _ => ⟨e, rfl, h, .refl e session.pool⟩⟩
    | succ limit =>
      obtain ⟨collected, p'', hcollects⟩ := ih (limit + 1)
      refine ⟨collected, p'', fun {e session} h hnow => ?_⟩
      obtain ⟨e₁, hanswer, hattends₁, hbeside₁⟩ := answer_apply h hsmall
      rw [hnow] at hanswer hattends₁
      obtain ⟨e', hcollect, hattends, hbeside⟩ :=
        hcollects hattends₁ (hbeside₁.now.trans hnow)
      exact ⟨e', by rw [Flow.collectUpTo, bind_apply hanswer, hcollect], hattends,
        hbeside₁.trans hbeside⟩

/-- A body that needs no session is read alike on all engines. -/
theorem readAsFar_idle {body : Http.Body} (hbody : body.session? = none) (patience : Option Nat) :
    ∃ read, ∀ e, readAsFar Clusters.client body patience e = (read, e) := by
  have hidle : ∀ call, ∃ reply, ∀ e, bodyAnswer Clusters.client none call e = (reply, e) := by
    intro call
    cases call <;> exact ⟨_, fun _ => rfl⟩
  cases body with
  | whole bytes =>
    cases patience with
    | none => exact ⟨_, fun e => rfl⟩
    | some limit => exact ⟨_, fun e => rfl⟩
  | streamed needed flow =>
    cases hbody
    cases patience with
    | none =>
      obtain ⟨⟨chunks, result⟩, hcollect⟩ := flow.collect_idle hidle
      cases result with
      | ok => exact ⟨(chunks, none), fun e => readBody_streamed (hcollect e)⟩
      | error failure => exact ⟨(chunks, some failure), fun e => readBody_streamed (hcollect e)⟩
    | some limit =>
      obtain ⟨collected, hcollect⟩ := flow.collectUpTo_idle hidle limit
      exact ⟨_, fun e => bind_apply (bind_apply (hcollect e))⟩

/-- A body that needs its session is read alike in every session on the pool, which is closed
then. -/
theorem readAsFar_held {flow : SessionFlow Bytes (Except Failure Unit)} {chunks : List Bytes}
    (hruns : p.Runs now flow chunks (.ok ()) p') (patience : Option Nat) :
    ∃ read p'', ∀ {e e₁ : Engine Clusters} {session : OpenSession}, e.Ready →
      e.Holds e₁ session p → e.store.now = now →
      ∃ e', readAsFar Clusters.client (.streamed (some session) flow) patience e₁ = (read, e')
        ∧ e.Settled e' session.pool p'' := by
  cases patience with
  | none =>
    refine ⟨(chunks, none), p', fun {e e₁ session} hready hholds hnow => ?_⟩
    obtain ⟨e₂, hcollect, hattends, hbeside⟩ :=
      collect_apply hruns hholds.attends (hholds.beside.now.trans hnow)
    obtain ⟨e', hleave, hready', hbeside', hpool⟩ :=
      leave_apply hready (hholds.after hattends hbeside)
    exact ⟨e', (bind_apply hcollect).trans (bind_apply hleave), hready', hbeside', hpool⟩
  | some limit =>
    obtain ⟨collected, p'', hcollects⟩ := collectUpTo_apply hruns limit
    refine ⟨(collected.1, none), p'', fun {e e₁ session} hready hholds hnow => ?_⟩
    obtain ⟨e₂, hcollect, hattends, hbeside⟩ :=
      hcollects hholds.attends (hholds.beside.now.trans hnow)
    obtain ⟨e', hleave, hready', hbeside', hpool⟩ :=
      leave_apply hready (hholds.after hattends hbeside)
    have hread : readUpTo Clusters.client (.streamed (some session) flow) limit e₁ =
        (collected.1, e') := (bind_apply hcollect).trans (bind_apply hleave)
    exact ⟨e', bind_apply hread, hready', hbeside', hpool⟩

/-- A visit reads the response to its request as far as it goes. -/
theorem Serves.visit {v : Visit} {result : Except Http.Problem Http.Response}
    {read : List Bytes × Option Failure}
    (h : e.Serves (Http.Serve.request table v.request).run result e₁)
    (hread : readAsFar Clusters.client (Http.Response.ofResult result).body v.patience e₁ =
      (read, e')) :
    (visit Clusters.client table v).run e =
      (some (.ofRead (Http.Response.ofResult result) read), e') := by
  have hserves : e.Serves (Http.serve table v.request) (Http.Response.ofResult result) e₁ := by
    rw [Http.serve_eq]
    exact h.bind (.done _ _)
  have hhandle : (handle Clusters.client table v.request).run e =
      (some (Http.Response.ofResult result), e₁) := hserves
  rw [visit_run, hhandle]
  simp only [hread]
  rfl

/-- A request that makes no call is answered alike on all engines, and leaves them as they are. -/
theorem visit_at_once {v : Visit} (result : Except Http.Problem Http.Response)
    (h : Http.Serve.request table v.request = Http.Serve.ensure result)
    (hnone : ∀ response, result = .ok response → response.body.session? = none) :
    ∃ x, x.status = (Http.Response.ofResult result).status
      ∧ ∀ e, (visit Clusters.client table v).run e = (some x, e) := by
  obtain ⟨read, hread⟩ := readAsFar_idle (Http.Response.session?_ofResult hnone) v.patience
  refine ⟨.ofRead (Http.Response.ofResult result) read, rfl, fun e => ?_⟩
  have hserves : e.Serves (Http.Serve.request table v.request).run result e := by
    rw [h]
    exact .ensure e result
  exact hserves.visit (hread e)

theorem Mounted.settled (h : e.Mounted mount p) : e.Settled e mount.ref p :=
  ⟨h.ready, .refl e mount.ref, h.pool⟩

end Engine

/-! ## Flows in a session -/

namespace Http.Serve

variable {α β : Type} {now : Int} {p p' p'' : MemoryPool} {r : Request} {mount : Mount}
variable {verb : Verb} {key : String}

/-- In every session on the pool `p`, at the time `now`, the flow ends with the result and leaves
the pool `p'`. -/
def Yields (now : Int) (p : MemoryPool) (flow : OpenSession → ServeM α)
    (result : Except Problem α) (p' : MemoryPool) : Prop :=
  ∀ ⦃e e₁ : Engine Clusters⦄ ⦃session : OpenSession⦄, e.store.now = now →
    e.Holds e₁ session p →
      ∃ e₂, e₁.Serves (flow session).run result e₂ ∧ e.Holds e₂ session p'

theorem yields_ensure (now : Int) (p : MemoryPool) (result : Except Problem α) :
    Yields now p (fun _ => ensure result) result p :=
  fun _ e₁ _ _ hholds => ⟨e₁, .ensure e₁ result, hholds⟩

theorem yields_pure (now : Int) (p : MemoryPool) (a : α) :
    Yields now p (fun _ => pure a) (.ok a) p := yields_ensure now p (.ok a)

theorem yields_throw (now : Int) (p : MemoryPool) (problem : Problem) :
    Yields now p (fun _ => throw problem : OpenSession → ServeM α) (.error problem) p :=
  yields_ensure now p (.error problem)

theorem Yields.ok_bind {flow : OpenSession → ServeM α} {f : OpenSession → α → ServeM β} {a : α}
    {result : Except Problem β} (h : Yields now p flow (.ok a) p')
    (hf : Yields now p' (fun session => f session a) result p'') :
    Yields now p (fun session => flow session >>= f session) result p'' := by
  intro e e₁ session hnow hholds
  obtain ⟨e₂, hserves, hholds₂⟩ := h hnow hholds
  obtain ⟨e₃, hrest, hholds₃⟩ := hf hnow hholds₂
  exact ⟨e₃, hserves.ok_bind hrest, hholds₃⟩

theorem Yields.error_bind {flow : OpenSession → ServeM α} {f : OpenSession → α → ServeM β}
    {problem : Problem} (h : Yields now p flow (.error problem) p') :
    Yields now p (fun session => flow session >>= f session) (.error problem) p' := by
  intro e e₁ session hnow hholds
  obtain ⟨e₂, hserves, hholds₂⟩ := h hnow hholds
  exact ⟨e₂, hserves.error_bind, hholds₂⟩

theorem yields_within {x : SessionM Empty α} {items : List Empty} {result : Except Failure α}
    (hruns : p.Runs now x.run items result p') (f : Failure → Problem) :
    Yields now p (fun session => within session f x) (result.mapError f) p' := by
  rintro e e₁ session rfl hholds
  exact hholds.serves_within hruns f

/-- A body is stored, or it is told why not. -/
theorem exists_yields_upload (hsmall : r.bytes.length < Text.signedLimit) (now : Int)
    (p : MemoryPool) (key : String) (replaces : Bool) :
    ∃ result p', (∀ response, result = .ok response → response.body.session? = none)
      ∧ Yields now p (fun session => upload r session key replaces) result p' := by
  have hdeclared := yields_ensure now p (declaredLength r)
  cases hlength : declaredLength r with
  | error problem =>
    rw [hlength] at hdeclared
    refine ⟨.error problem, p, Response.session?_of_error _, ?_⟩
    unfold upload
    rw [hlength]
    exact hdeclared.error_bind
  | ok declared =>
    rw [hlength] at hdeclared
    rw [← bytesOf_frames r] at hsmall
    obtain ⟨items, result, p', hruns⟩ := MemoryPool.exists_runs
      (Upload.run_small hsmall key declared Upload.usualChunk replaces) p now
    have hwithin := yields_within hruns .ofFailure
    cases result with
    | error failure =>
      refine ⟨.error (.ofFailure failure), p', Response.session?_of_error _, ?_⟩
      unfold upload
      rw [hlength]
      exact hdeclared.ok_bind hwithin.error_bind
    | ok receipt =>
      refine ⟨.ok { status := 201 }, p', Response.session?_of_ok rfl, ?_⟩
      unfold upload
      rw [hlength]
      exact hdeclared.ok_bind (hwithin.ok_bind (yields_pure now p' _))

/-- All requests for an object but those for its bytes are over when the response is given. -/
theorem exists_yields_onObject (hverb : verb ≠ .get) (hsmall : r.bytes.length < Text.signedLimit)
    (now : Int) (p : MemoryPool) (mount : Mount) (key : String) :
    ∃ result p', (∀ response, result = .ok response → response.body.session? = none)
      ∧ Yields now p (fun session => onObject r mount verb key session (Engine.statOf p key))
        result p' := by
  cases hget : p.objects.get? key with
  | none =>
    rw [Engine.statOf_of_none hget]
    by_cases hput : verb = .put
    · subst hput
      exact exists_yields_upload hsmall now p key false
    · refine ⟨.error (.notFound ("object not found: " ++ key)), p, Response.session?_of_error _, ?_⟩
      simp only [onObject, if_neg hput]
      exact yields_throw now p _
  | some object =>
    rw [Engine.statOf_of_some hget]
    cases verb with
    | get => exact absurd rfl hverb
    | put => exact exists_yields_upload hsmall now p key true
    | delete =>
      have hruns : p.Runs now (Session.remove key : SessionM Empty Unit).run [] (.ok ()) _ :=
        MemoryPool.Runs.remove_of_some hget
      have hremove := yields_within hruns fun failure => .forbidden failure.message
      refine ⟨.ok { status := 200 }, ⟨p.objects.erase key⟩, Response.session?_of_ok rfl, ?_⟩
      exact hremove.ok_bind (yields_pure now _ _)
    | propfind =>
      have hdrain := yields_ensure now p (drain r.body)
      cases hbody : drain r.body with
      | error problem =>
        rw [hbody] at hdrain
        refine ⟨.error problem, p, Response.session?_of_error _, ?_⟩
        simp only [onObject, hbody]
        exact hdrain.error_bind
      | ok =>
        rw [hbody] at hdrain
        refine ⟨.ok (.multistatus none (Multistatus.single (.object mount.base key object.stat))),
          p, Response.session?_of_ok rfl, ?_⟩
        simp only [onObject, hbody]
        exact hdrain.ok_bind (yields_pure now p _)
    | head =>
      cases hunmodified : isUnmodified r object.stat with
      | true =>
        refine ⟨.ok { status := 304 }, p, Response.session?_of_ok rfl, ?_⟩
        simp only [onObject, objectResponse, hunmodified]
        exact yields_pure now p _
      | false =>
        refine ⟨.ok { status := 200, headers := objectHeaders key object.stat }, p,
          Response.session?_of_ok rfl, ?_⟩
        simp only [onObject, objectResponse, hunmodified, Bool.false_eq_true, if_false]
        exact yields_pure now p _
    | options | mkcol =>
      exact ⟨_, p, Response.session?_of_error _, yields_throw now p _⟩

end Http.Serve

/-! ## What a visit comes to -/

namespace Visit

variable {table : MountTable} {v : Visit} {mount : Mount} {now : Int} {p p' p'' : MemoryPool}
variable {verb : Http.Verb} {key : String}

/-- Wherever the mount has the pool `p` at the time `now`, the visit is answered `x` and leaves the
pool `p'`. -/
def Comes (table : MountTable) (v : Visit) (mount : Mount) (now : Int) (p : MemoryPool)
    (x : Exchange) (p' : MemoryPool) : Prop :=
  ∀ ⦃e : Engine Clusters⦄, e.Mounted mount p → e.store.now = now →
    ∃ e', (Engine.visit Clusters.client table v).run e = (some x, e') ∧ e.Settled e' mount.ref p'

/-- Wherever the mount has the pool `p` at the time `now`, the request is served with the result,
and leaves the pool `p'` and no session. -/
def Settles (table : MountTable) (r : Http.Request) (mount : Mount) (now : Int) (p : MemoryPool)
    (result : Except Http.Problem Http.Response) (p' : MemoryPool) : Prop :=
  ∀ ⦃e : Engine Clusters⦄, e.Mounted mount p → e.store.now = now →
    ∃ e', e.Serves (Http.Serve.request table r).run result e' ∧ e.Settled e' mount.ref p'

/-- The result is all that is read of a response without a session. -/
theorem exists_comes_of_settles (result : Except Http.Problem Http.Response)
    (hnone : (Http.Response.ofResult result).body.session? = none) (patience : Option Nat) :
    ∃ x, ∀ {table v mount now p p'}, v.patience = patience →
      Settles table v.request mount now p result p' → Comes table v mount now p x p' := by
  obtain ⟨read, hread⟩ := Engine.readAsFar_idle hnone patience
  refine ⟨.ofRead (Http.Response.ofResult result) read, ?_⟩
  rintro table v mount now p p' rfl h e hmounted hnow
  obtain ⟨e', hserves, hsettled⟩ := h hmounted hnow
  exact ⟨e', hserves.visit (hread e'), hsettled⟩

/-- A response that brings what a session on the pool hands out. -/
theorem exists_comes_of_holds {flow : SessionFlow Bytes (Except Failure Unit)}
    {chunks : List Bytes} (hruns : p.Runs now flow chunks (.ok ()) p') (status : Nat)
    (headers : List (String × String)) (patience : Option Nat) :
    ∃ x p'', ∀ {table v mount}, v.patience = patience →
      (∀ ⦃e : Engine Clusters⦄, e.Mounted mount p → e.store.now = now →
        ∃ session e₁, e.Serves (Http.Serve.request table v.request).run
            (.ok ⟨status, headers, .streamed (some session) flow⟩) e₁
          ∧ e.Holds e₁ session p ∧ session.pool = mount.ref) →
      Comes table v mount now p x p'' := by
  obtain ⟨read, p'', hread⟩ := Engine.readAsFar_held hruns patience
  refine ⟨⟨status, headers, read.1, read.2⟩, p'', ?_⟩
  rintro table v mount rfl h e hmounted hnow
  obtain ⟨session, e₁, hserves, hholds, hpool⟩ := h hmounted hnow
  obtain ⟨e', hread', hsettled⟩ := hread hmounted.ready hholds hnow
  -- the length of a body that streams is not known, so no header field is added
  exact ⟨e', hserves.visit hread', hpool ▸ hsettled⟩

/-! ### Requests for a key -/

/-- A request that makes no call leaves everything as it is. -/
theorem settles_at_once {r : Http.Request} {result : Except Http.Problem Http.Response}
    (h : Http.Serve.request table r = Http.Serve.ensure result) :
    Settles table r mount now p result p := by
  intro e hmounted _
  refine ⟨e, ?_, hmounted.settled⟩
  rw [h]
  exact .ensure e result

/-- What is done with the object in a session decides the request. -/
theorem settles_of_yields {r : Http.Request} {result : Except Http.Problem Http.Response}
    (hask : Engine.AsksFor table r verb mount key) (hoptions : verb ≠ .options)
    (hmkcol : verb ≠ .mkcol)
    (hnone : ∀ response, result = .ok response → response.body.session? = none)
    (h : Http.Serve.Yields now p
      (fun session => Http.Serve.onObject r mount verb key session (Engine.statOf p key))
      result p') : Settles table r mount now p result p' := by
  intro e hmounted hnow
  obtain ⟨session, e₂, hholds, -, hrest⟩ :=
    hmounted.serves_onKey (r := r) hask.permitted hmkcol hask.valid
  obtain ⟨e₃, hserves, hholds₃⟩ := h hnow hholds
  obtain ⟨e', hkey, hsettled⟩ := (hrest hserves).1 hholds₃ hnone
  exact ⟨e', hkey.request_key hask hoptions, hsettled⟩

theorem request_onKey {r : Http.Request}
    (hlocated : Http.Serve.locate table r = .ok ⟨mount, some key⟩)
    (hmethod : Http.Verb.ofMethod? r.method = some verb) (hoptions : verb ≠ .options) :
    Http.Serve.request table r = Http.Serve.onKey r mount verb key := by
  rw [Http.Serve.request_eq hlocated, hmethod]
  cases verb <;> first | rfl | exact absurd rfl hoptions

/-- What the mount does not permit is refused without a call. -/
theorem request_of_denied {r : Http.Request}
    (hlocated : Http.Serve.locate table r = .ok ⟨mount, some key⟩)
    (hmethod : Http.Verb.ofMethod? r.method = some verb) (hoptions : verb ≠ .options)
    (hdenied : ¬ verb.isPermitted mount.permissions) :
    Http.Serve.request table r =
      Http.Serve.ensure (.error (.methodNotAllowed mount.permissions.allowed)) := by
  rw [request_onKey hlocated hmethod hoptions]
  unfold Http.Serve.onKey
  rw [if_pos (by simpa using hdenied)]
  rfl

/-- An improper key is refused without a call. -/
theorem request_of_improper {r : Http.Request} {failure : Failure}
    (hlocated : Http.Serve.locate table r = .ok ⟨mount, some key⟩)
    (hmethod : Http.Verb.ofMethod? r.method = some verb) (hoptions : verb ≠ .options)
    (hmkcol : verb ≠ .mkcol) (hpermitted : verb.isPermitted mount.permissions)
    (hkey : Names.checkKey key = .error failure) :
    Http.Serve.request table r = Http.Serve.ensure (.error (.ofFailure failure)) := by
  rw [request_onKey hlocated hmethod hoptions]
  unfold Http.Serve.onKey
  rw [if_neg (by simpa using hpermitted), if_neg hmkcol, hkey]
  rfl

/-- A request for a key, other than for the bytes of the object or for a new pool, is settled. -/
theorem exists_settles_onKey {r : Http.Request}
    (hlocated : Http.Serve.locate table r = .ok ⟨mount, some key⟩)
    (hmethod : Http.Verb.ofMethod? r.method = some verb) (hoptions : verb ≠ .options)
    (hmkcol : verb ≠ .mkcol) (hget : verb ≠ .get) (hsmall : r.bytes.length < Text.signedLimit)
    (now : Int) (p : MemoryPool) :
    ∃ result p', (∀ response, result = .ok response → response.body.session? = none)
      ∧ Settles table r mount now p result p' := by
  by_cases hpermitted : verb.isPermitted mount.permissions
  · cases hkey : Names.checkKey key with
    | error failure =>
      exact ⟨.error (.ofFailure failure), p, Http.Response.session?_of_error _, settles_at_once
        (request_of_improper hlocated hmethod hoptions hmkcol hpermitted hkey)⟩
    | ok =>
      obtain ⟨result, p', hnone, hyields⟩ :=
        Http.Serve.exists_yields_onObject hget hsmall now p mount key
      exact ⟨result, p', hnone, settles_of_yields ⟨hlocated, hmethod, hpermitted, hkey⟩
        hoptions hmkcol hnone hyields⟩
  · exact ⟨.error (.methodNotAllowed mount.permissions.allowed), p,
      Http.Response.session?_of_error _,
      settles_at_once (request_of_denied hlocated hmethod hoptions hpermitted)⟩

theorem isUnmodified_congr {r r' : Http.Request}
    (h : r.header? "if-modified-since" = r'.header? "if-modified-since") (stat : ObjectStat) :
    Http.Serve.isUnmodified r stat = Http.Serve.isUnmodified r' stat := by
  unfold Http.Serve.isUnmodified
  rw [h]

/-- What is sent of an object depends on the pool and the key, and on the time that the request
names, and not on the mount. -/
theorem exists_comes_get (now : Int) (p : MemoryPool) (key : String) (r : Http.Request)
    (patience : Option Nat) :
    ∃ x p', ∀ {table : MountTable} {v : Visit} {mount : Mount},
      Http.Serve.locate table v.request = .ok ⟨mount, some key⟩ →
      Http.Verb.ofMethod? v.request.method = some .get →
      v.request.header? "if-modified-since" = r.header? "if-modified-since" →
      v.patience = patience →
        Comes table v mount now p x p' := by
  cases hkey : Names.checkKey key with
  | error failure =>
    obtain ⟨x, hcomes⟩ := exists_comes_of_settles (.error (.ofFailure failure))
      (Http.Response.session?_ofResult (Http.Response.session?_of_error _)) patience
    refine ⟨x, p, fun {table v mount} hlocated hmethod _ hpatience => ?_⟩
    exact hcomes hpatience
      (settles_at_once (request_of_improper hlocated hmethod nofun nofun rfl hkey))
  | ok =>
    have hask : ∀ {table : MountTable} {r : Http.Request} {mount : Mount},
        Http.Serve.locate table r = .ok ⟨mount, some key⟩ →
        Http.Verb.ofMethod? r.method = some .get → Engine.AsksFor table r .get mount key :=
      fun hlocated hmethod => ⟨hlocated, hmethod, rfl, hkey⟩
    cases hget : p.objects.get? key with
    | none =>
      obtain ⟨x, hcomes⟩ := exists_comes_of_settles
        (.error (.notFound ("object not found: " ++ key)))
        (Http.Response.session?_ofResult (Http.Response.session?_of_error _)) patience
      refine ⟨x, p, fun {table v mount} hlocated hmethod _ hpatience => ?_⟩
      refine hcomes hpatience (settles_of_yields (hask hlocated hmethod) nofun nofun nofun ?_)
      rw [Engine.statOf_of_none hget]
      exact Http.Serve.yields_throw now p _
    | some object =>
      cases hunmodified : Http.Serve.isUnmodified r object.stat with
      | true =>
        obtain ⟨x, hcomes⟩ := exists_comes_of_settles (.ok { status := 304 })
          (Http.Response.session?_ofResult (Http.Response.session?_of_ok rfl)) patience
        refine ⟨x, p, fun {table v mount} hlocated hmethod hsince hpatience => ?_⟩
        refine hcomes hpatience (settles_of_yields (hask hlocated hmethod) nofun nofun
          (Http.Response.session?_of_ok rfl) ?_)
        rw [Engine.statOf_of_some hget]
        simp only [Http.Serve.onObject, Http.Serve.objectResponse, isUnmodified_congr hsince,
          hunmodified]
        exact Http.Serve.yields_pure now p _
      | false =>
        obtain ⟨chunks, hruns, -⟩ := Download.run_runs now hget Download.usualChunk
        obtain ⟨x, p'', hcomes⟩ := exists_comes_of_holds hruns 200
          (Http.Serve.objectHeaders key object.stat) patience
        refine ⟨x, p'', fun {table v mount} hlocated hmethod hsince hpatience => ?_⟩
        refine hcomes hpatience fun e hmounted _ => ?_
        exact hmounted.serves_changed (hask hlocated hmethod) hget
          ((isUnmodified_congr hsince object.stat).trans hunmodified)

/-! ### All requests -/

/-- What a request comes to that makes no call. -/
theorem exists_comes_at_once (result : Except Http.Problem Http.Response)
    (h : Http.Serve.request table v.request = Http.Serve.ensure result)
    (hnone : ∀ response, result = .ok response → response.body.session? = none) :
    ∃ x p', Comes table v mount now p x p' := by
  obtain ⟨x, -, hvisit⟩ := Engine.visit_at_once result h hnone
  exact ⟨x, p, fun e hmounted _ => ⟨e, hvisit e, hmounted.settled⟩⟩

/-- What a request comes to that is refused without a call. -/
theorem exists_comes_refused (problem : Http.Problem)
    (h : Http.Serve.request table v.request = Http.Serve.ensure (.error problem)) :
    ∃ x p', Comes table v mount now p x p' :=
  exists_comes_at_once (.error problem) h (Http.Response.session?_of_error problem)

theorem exists_comes_onRoot (hlocated : Http.Serve.locate table v.request = .ok ⟨mount, none⟩)
    (hmethod : Http.Verb.ofMethod? v.request.method = some verb) (hoptions : verb ≠ .options)
    (now : Int) (p : MemoryPool) : ∃ x p', Comes table v mount now p x p' := by
  have hrequest : Http.Serve.request table v.request =
      Http.Serve.onRoot v.request mount verb := by
    rw [Http.Serve.request_eq hlocated, hmethod]
    cases verb <;> first | rfl | exact absurd rfl hoptions
  by_cases hpropfind : verb = .propfind ∧ mount.permissions.propfind
  · cases hdepth : Http.Depth.ofRequest v.request with
    | error problem =>
      refine exists_comes_refused problem (hrequest.trans ?_)
      unfold Http.Serve.onRoot
      rw [if_pos hpropfind, hdepth]
      rfl
    | ok depth =>
      cases hdrain : Http.Serve.drain v.request.body with
      | error problem =>
        refine exists_comes_refused problem (hrequest.trans ?_)
        unfold Http.Serve.onRoot
        rw [if_pos hpropfind, hdepth, hdrain]
        rfl
      | ok =>
        cases depth with
        | itself =>
          refine exists_comes_at_once (.ok (.multistatus none
            (Http.Multistatus.single (.collection mount.base)))) (hrequest.trans ?_)
            (Http.Response.session?_of_ok rfl)
          unfold Http.Serve.onRoot
          rw [if_pos hpropfind, hdepth, hdrain]
          rfl
        | members =>
          obtain ⟨x, p', hcomes⟩ := exists_comes_of_holds (Engine.listing_runs mount.base p) 207
            [("content-type", "text/xml; charset=\"utf-8\"")] v.patience
          refine ⟨x, p', hcomes rfl fun e hmounted _ => ?_⟩
          obtain ⟨session, e₁, henter, hholds, hpool⟩ := hmounted.serves_enter
          refine ⟨session, e₁, ?_, hholds, hpool⟩
          rw [hrequest]
          unfold Http.Serve.onRoot
          rw [if_pos hpropfind, hdepth, hdrain]
          exact henter.ok_bind (.pure _ _)
  · refine exists_comes_refused (.methodNotAllowed mount.permissions.allowed) (hrequest.trans ?_)
    unfold Http.Serve.onRoot
    rw [if_neg hpropfind]
    rfl

/-- What a visit through a mount comes to is told by the pool of the mount and by the date, unless
it is one for a new pool. -/
theorem exists_comes {d : Destination} (hlocated : Http.Serve.locate table v.request = .ok d)
    (hmkcol : Http.Verb.ofMethod? v.request.method ≠ some .mkcol)
    (hsmall : v.request.bytes.length < Text.signedLimit) (now : Int) (p : MemoryPool) :
    ∃ x p', Comes table v d.mount now p x p' := by
  obtain ⟨mount, key?⟩ := d
  cases hmethod : Http.Verb.ofMethod? v.request.method with
  | none =>
    refine exists_comes_refused (.methodNotAllowed mount.permissions.allowed) ?_
    rw [Http.Serve.request_eq hlocated, hmethod]
    rfl
  | some verb =>
    by_cases hoptions : verb = .options
    · refine exists_comes_at_once (.ok (Http.Serve.optionsResponse mount.permissions)) ?_
        (Http.Response.session?_of_ok rfl)
      rw [Http.Serve.request_eq hlocated, hmethod, hoptions]
      rfl
    · cases key? with
      | none => exact exists_comes_onRoot hlocated hmethod hoptions now p
      | some key =>
        by_cases hget : verb = .get
        · obtain ⟨x, p', hcomes⟩ := exists_comes_get now p key v.request v.patience
          exact ⟨x, p', hcomes hlocated (hget ▸ hmethod) rfl rfl⟩
        · have hverb : verb ≠ .mkcol := fun hsame => hmkcol (hsame ▸ hmethod)
          obtain ⟨result, p', hnone, hsettles⟩ :=
            exists_settles_onKey hlocated hmethod hoptions hverb hget hsmall now p
          obtain ⟨x, hcomes⟩ := exists_comes_of_settles result
            (Http.Response.session?_ofResult hnone) v.patience
          exact ⟨x, p', hcomes rfl hsettles⟩

end Visit

end DavGateway
