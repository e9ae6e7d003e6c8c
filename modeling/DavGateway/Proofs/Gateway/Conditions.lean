import DavGateway.Proofs.Gateway.Exchanges
import DavGateway.Proofs.Http.Fields
import DavGateway.Proofs.Http.Stages
import DavGateway.Proofs.HttpDate

/-!
# Conditional requests

A request for an object can name a time. If the object has not been changed since then, it is
answered 304, without a body and without a read; otherwise, and if the time cannot be read, it is
answered as if it named none (`conditional_requests`).
-/

namespace DavGateway

/-! ## Dates in requests -/

/-- What is written for a time stands for itself in a header field. -/
theorem HttpDate.isPrintable_of_mem_format {stamp : Int} (h : HasFourDigits stamp) :
    ∀ c ∈ (format stamp).toList, Text.IsPrintable c := by
  have hweekday : ∀ weekday < 7, ((weekdayNames.getD weekday "").toList.all fun c =>
      Text.IsPrintable c) = true := by decide
  have hmonth : ∀ month < 12, ((monthNames.getD month "").toList.all fun c =>
      Text.IsPrintable c) = true := by decide
  have hpadded : ∀ width n, ∀ c ∈ (Text.padded width n).toList, Text.IsPrintable c :=
    fun _ _ _ hc => Text.isPrintable_of_isDigit (Text.isDigit_of_mem_padded hc)
  have hzone : ∀ c ∈ [' ', 'G', 'M', 'T'], Text.IsPrintable c :=
    Text.isPrintable_of_all (by decide)
  have hvalid := Date.bounds_of_isValid (Date.isValid_ofDayNumber (stamp / secondsPerDay))
  have hmonthOf : (Date.ofDayNumber (stamp / secondsPerDay)).month - 1 < 12 := by omega
  rw [format_eq h, String.toList_ofList, written]
  simp only [List.forall_mem_append, List.forall_mem_cons] at hzone ⊢
  exact ⟨Text.isPrintable_of_all (hweekday _ (Date.weekday_lt _)), by decide, by decide,
    hpadded _ _, by decide, Text.isPrintable_of_all (hmonth _ hmonthOf), by decide, hpadded _ _,
    by decide, hpadded _ _, by decide, hpadded _ _, by decide, hpadded _ _, hzone⟩

/-- The time that a request names, if it can be read. -/
def Http.Serve.since? (r : Http.Request) : Option Int :=
  ((r.header? "if-modified-since").bind Http.Request.visible?).bind fun text =>
    HttpDate.read? (String.ofList text)

/-- A time that is written in the usual form is the one that the request names. -/
theorem Http.Serve.since?_format {r : Http.Request} {stamp : Int}
    (h : HttpDate.HasFourDigits stamp)
    (hheader : r.header? "if-modified-since" = some (Bytes.ofText (HttpDate.format stamp))) :
    since? r = some stamp := by
  have hvisible := Http.Request.visible?_printable (HttpDate.isPrintable_of_mem_format h)
  rw [String.ofList_toList] at hvisible
  rw [since?, hheader, Option.bind_some, hvisible, Option.bind_some, String.ofList_toList,
    HttpDate.read?_format h]

theorem Http.Serve.isUnmodified_eq (r : Http.Request) (stat : ObjectStat) :
    isUnmodified r stat = (since? r).any fun since => stat.mtime ≤ since := rfl

/-! ## Requests that name no time that can be read -/

namespace Http

variable {r r' : Request} {table : MountTable}

/-- The request without the time that it names. -/
def Request.unconditional (r : Request) : Request :=
  { r with headers := r.headers.filter fun field => field.1 != "if-modified-since" }

theorem Request.header?_unconditional {name : String} (h : name ≠ "if-modified-since")
    (r : Request) : r.unconditional.header? name = r.header? name := by
  unfold header? unconditional
  simp only
  induction r.headers with
  | nil => rfl
  | cons field rest ih =>
    by_cases hfield : field.1 = "if-modified-since"
    · have hother : (name == field.1) = false := beq_eq_false_iff_ne.mpr (hfield ▸ h)
      rw [List.filter_cons_of_neg (by simp [hfield]), ih, List.lookup_cons, hother]
    · rw [List.filter_cons_of_pos (by simp [hfield]), List.lookup_cons, List.lookup_cons, ih]

theorem Request.header?_unconditional_since (r : Request) :
    r.unconditional.header? "if-modified-since" = none := by
  unfold header? unconditional
  rw [List.lookup_eq_none_iff]
  intro field hfield
  exact bne_iff_ne.mpr (bne_iff_ne.mp (List.mem_filter.mp hfield).2).symm

namespace Serve

/-- What is done for a request depends on its method, its path and its body, and on what is read
from three header fields. -/
theorem serve_congr (hmethod : r.method = r'.method) (hpath : r.path = r'.path)
    (hbody : r.body = r'.body) (hlength : declaredLength r = declaredLength r')
    (hdepth : Depth.ofRequest r = Depth.ofRequest r') (hsince : since? r = since? r') :
    serve table r = serve table r' := by
  have hlocate : locate table r = locate table r' := by
    unfold locate
    rw [hpath]
  have hunmodified : ∀ stat, isUnmodified r stat = isUnmodified r' stat := fun stat => by
    rw [isUnmodified_eq, isUnmodified_eq, hsince]
  have hroot : ∀ mount verb, onRoot r mount verb = onRoot r' mount verb := fun mount verb => by
    unfold onRoot
    rw [hdepth, hbody]
  have hobject : ∀ mount verb key session found,
      onObject r mount verb key session found = onObject r' mount verb key session found := by
    intro mount verb key session found
    simp only [onObject, upload, objectResponse, hlength, hbody, hunmodified]
  have hkey : ∀ mount verb key, onKey r mount verb key = onKey r' mount verb key := by
    intro mount verb key
    simp only [onKey, hobject]
  unfold serve request
  simp only [hlocate, hmethod, hroot, hkey]

/-- A time that cannot be read is ignored. -/
theorem serve_unconditional (h : since? r = none) (table : MountTable) :
    serve table r = serve table r.unconditional := by
  refine serve_congr rfl rfl rfl ?_ ?_ ?_
  · unfold declaredLength
    rw [Request.header?_unconditional (by decide)]
  · unfold Depth.ofRequest
    rw [Request.header?_unconditional (by decide)]
  · rw [h, since?, Request.header?_unconditional_since]
    rfl

end Serve

/-! ## Requests for an object as it is -/

namespace Serve

variable {verb : Verb} {mount : Mount} {key : String} {session : OpenSession} {stat : ObjectStat}
variable {withBody : Bool}

/-- What follows when an object was found: its session is closed, unless its bytes are to be
sent. -/
def conclude (r : Request) (verb : Verb) (key : String) (session : OpenSession)
    (stat : ObjectStat) : GatewayFlow Response :=
  let response := (objectResponse r session key stat (verb == .get)).framed
  if verb = .get ∧ isUnmodified r stat = false then .done response
  else .ask (.leave session) fun _ => .done response

theorem status_ofProblem {problem : Problem} (h : problem.Refuses ()) :
    (Response.ofProblem problem).framed.status ≠ 200 := by
  rw [Response.framed_status]
  have hstatus : 400 ≤ problem.status := h
  exact Nat.ne_of_gt (Nat.lt_of_lt_of_le (by decide) hstatus)

/-- The session of an object is closed, unless its bytes are to be sent. -/
theorem closing_object (hverb : verb = .get ∨ verb = .head) :
    (closing session (pure (objectResponse r session key stat (verb == .get)))).run.bind
      (fun result => .done (Response.ofResult result)) = conclude r verb key session stat := by
  unfold conclude objectResponse
  cases hunmodified : isUnmodified r stat with
  | true => rcases hverb with rfl | rfl <;> rfl
  | false =>
    rcases hverb with rfl | rfl
    · have hkeeps : (some session == some session) = true := beq_self_eq_true _
      unfold closing
      show (if (some session == some session) = true then _ else _ : GatewayFlow _).bind _ = _
      rw [if_pos hkeeps]
      rfl
    · rfl

/-- A request for an object opens a session and looks the object up. -/
theorem serve_object (hask : Engine.AsksFor table r verb mount key)
    (hverb : verb = .get ∨ verb = .head) :
    ∃ resume, serve table r = .ask (.enter mount.ref mount.limit) resume
      ∧ (∀ failure, ∃ response, resume (.error failure) = .done response ∧ response.status ≠ 200)
      ∧ ∀ session, ∃ resume',
        resume (.ok session) = .ask (.within session (.operate (.stat key))) resume'
        ∧ (∀ stat, resume' (.ok (.stat stat)) = conclude r verb key session stat)
        ∧ ∀ outcome, (∀ stat, outcome ≠ .ok (.stat stat)) → ∃ response,
          resume' outcome = .ask (.leave session) (fun _ => .done response)
            ∧ response.status ≠ 200 := by
  have hrequest : request table r = onKey r mount verb key := by
    rw [request_eq hask.located, hask.method]
    rcases hverb with rfl | rfl <;> rfl
  have hmkcol : verb ≠ .mkcol := by rcases hverb with rfl | rfl <;> decide
  rw [serve_eq, hrequest]
  unfold onKey
  rw [if_neg (by simpa using hask.permitted), if_neg hmkcol, hask.valid]
  refine ⟨_, rfl, fun failure => ⟨_, rfl, ?_⟩, fun session => ⟨_, rfl, fun stat => ?_, ?_⟩⟩
  · exact status_ofProblem (Problem.refuses_ofFailure () failure)
  · have hfound : conclude r verb key session stat =
        (closing session (pure (objectResponse r session key stat (verb == .get)))).run.bind
          fun result => .done (Response.ofResult result) := (closing_object hverb).symm
    rw [hfound]
    rcases hverb with rfl | rfl <;> rfl
  · intro outcome hother
    -- a store that answers with anything else is at fault
    match outcome with
    | .ok (.stat stat) => exact absurd rfl (hother stat)
    | .ok (.data bytes) => exact ⟨_, rfl, status_ofProblem (Problem.refuses_mk (by decide))⟩
    | .ok .done => exact ⟨_, rfl, status_ofProblem (Problem.refuses_mk (by decide))⟩
    | .error failure =>
      rcases hverb with rfl | rfl <;> cases failure <;>
        exact ⟨_, rfl, status_ofProblem (Problem.refuses_mk (by decide))⟩

/-- The calls of a request that finds its object, each with its answer. -/
def findings (r : Request) (verb : Verb) (mount : Mount) (key : String) (session : OpenSession)
    (stat : ObjectStat) : List (Sigma GatewayCall.Answer) :=
  [⟨.enter mount.ref mount.limit, .ok session⟩,
    ⟨.within session (.operate (.stat key)), .ok (.stat stat)⟩]
    ++ if verb = .get ∧ isUnmodified r stat = false then [] else [⟨.leave session, ()⟩]

/-- A request that finds its object is answered without any other call. -/
theorem replay_findings (hask : Engine.AsksFor table r verb mount key)
    (hverb : verb = .get ∨ verb = .head) (session : OpenSession) (stat : ObjectStat) :
    (serve table r).replay (findings r verb mount key session stat) =
      some (objectResponse r session key stat (verb == .get)).framed := by
  obtain ⟨resume, hserve, -, hopened⟩ := serve_object hask hverb
  obtain ⟨resume', hresume, hfound, -⟩ := hopened session
  rw [hserve]
  refine Flow.replay_of_answer.trans ?_
  rw [hresume]
  refine Flow.replay_of_answer.trans ?_
  rw [hfound, conclude]
  split
  · rfl
  · exact Flow.replay_of_answer

section Ending

variable {events : List (Sigma GatewayCall.Answer)} {response result : Response}

theorem replay_done (h : (.done result : GatewayFlow Response).replay events = some response) :
    result = response := by
  cases events with
  | nil => exact Option.some.inj h
  | cons event rest => cases h

theorem replay_leave (h : (.ask (.leave session) fun _ => .done result :
    GatewayFlow Response).replay events = some response) : result = response := by
  obtain ⟨_, rest, rfl, hrest⟩ := Flow.replay_ask h
  exact replay_done hrest

end Ending

/-- A request that is answered 200 has found its object. -/
theorem found_of_replay (hask : Engine.AsksFor table r verb mount key)
    (hverb : verb = .get ∨ verb = .head) {events : List (Sigma GatewayCall.Answer)}
    {response : Response} (h : (serve table r).replay events = some response)
    (hstatus : response.status = 200) :
    ∃ session stat,
      (⟨.within session (.operate (.stat key)), .ok (.stat stat)⟩ :
          Sigma GatewayCall.Answer) ∈ events
        ∧ response = (objectResponse r session key stat (verb == .get)).framed := by
  obtain ⟨resume, hserve, hrefused, hopened⟩ := serve_object hask hverb
  rw [hserve] at h
  obtain ⟨answer, afterEnter, rfl, hafterEnter⟩ := Flow.replay_ask h
  -- with no session, or without the object, the answer is another
  match answer with
  | .error failure =>
    obtain ⟨refusal, hresume, hrefusal⟩ := hrefused failure
    rw [hresume] at hafterEnter
    exact absurd (replay_done hafterEnter ▸ hstatus) hrefusal
  | .ok session =>
    obtain ⟨resume', hresume, hfound, hmissing⟩ := hopened session
    rw [hresume] at hafterEnter
    obtain ⟨outcome, afterStat, rfl, hafterStat⟩ := Flow.replay_ask hafterEnter
    by_cases hother : ∀ stat, outcome ≠ .ok (.stat stat)
    · obtain ⟨refusal, hleave, hrefusal⟩ := hmissing outcome hother
      rw [hleave] at hafterStat
      exact absurd (replay_leave hafterStat ▸ hstatus) hrefusal
    · obtain ⟨stat, rfl⟩ := not_forall_not.mp hother
      refine ⟨session, stat, by simp, ?_⟩
      rw [hfound, conclude] at hafterStat
      split at hafterStat
      · exact (replay_done hafterStat).symm
      · exact (replay_leave hafterStat).symm

theorem status_object (r : Request) (session : OpenSession) (key : String) (stat : ObjectStat)
    (withBody : Bool) : (objectResponse r session key stat withBody).framed.status =
      if isUnmodified r stat then 304 else 200 := by
  rw [Response.framed_status, objectResponse]
  cases isUnmodified r stat <;> rfl

/-- An object that has not been changed is not sent. -/
theorem body_object (h : isUnmodified r stat = true) (withBody : Bool) :
    (objectResponse r session key stat withBody).framed.body = .whole [] := by
  rw [Response.framed_body, objectResponse, h]
  rfl

/-- A description tells when the object was last changed. -/
theorem lastModified_object
    (h : (objectResponse r session key stat withBody).framed.status = 200) :
    (objectResponse r session key stat withBody).framed.headers.lookup "last-modified" =
      some (HttpDate.format stat.mtime) := by
  rw [status_object] at h
  unfold objectResponse
  cases hunmodified : isUnmodified r stat with
  | true =>
    rw [hunmodified] at h
    cases h
  | false => cases withBody <;> rfl

end Serve

end Http

/-- The call reads bytes of an object. -/
def GatewayCall.Reads (call : GatewayCall) : Prop :=
  ∃ session key length offset, call = .within session (.operate (.read key length offset))

theorem Http.Serve.findings_reads {r : Http.Request} {verb : Http.Verb} {mount : Mount}
    {key : String} {session : OpenSession} {stat : ObjectStat} :
    ∀ event ∈ findings r verb mount key session stat, ¬ event.1.Reads := by
  have hleave : ∀ event ∈ if verb = .get ∧ isUnmodified r stat = false then []
      else [(⟨.leave session, ()⟩ : Sigma GatewayCall.Answer)], ¬ event.1.Reads := by
    split
    · exact nofun
    · exact List.forall_mem_singleton.mpr nofun
  exact List.forall_mem_append.mpr
    ⟨List.forall_mem_cons.mpr ⟨nofun, List.forall_mem_singleton.mpr nofun⟩, hleave⟩

/-- A request that gets a slot and finds its object comes to its end. -/
theorem Engine.plays_findings {σ : Type} {client : StoreClient σ} {e e₁ e₂ : Engine σ}
    {r : Http.Request} {verb : Http.Verb} {mount : Mount} {key : String} {session : OpenSession}
    {stat : ObjectStat}
    (henter : (enter mount.ref mount.limit).run e = (some (.ok session), e₁))
    (hstat : answer client session (.operate (.stat key)) e₁ = (.ok (.stat stat), e₂)) :
    ∃ e', Flow.Plays (respond client) e (Http.Serve.findings r verb mount key session stat) e' := by
  have hlook : (respond client (.within session (.operate (.stat key)))).run e₁ =
      (some (.ok (.stat stat)), e₂) :=
    congrArg (fun a : Outcome × Engine σ => (some a.1, a.2)) hstat
  have hleave : (respond client (.leave session)).run e₂ = (some (), (leave session e₂).2) := rfl
  -- the session of a download stays open until its bytes are sent
  have hlast : ∃ e', Flow.Plays (respond client) e₂
      (if verb = .get ∧ Http.Serve.isUnmodified r stat = false then []
        else [⟨.leave session, ()⟩]) e' := by
    split
    · exact ⟨e₂, .nil _⟩
    · exact ⟨_, .cons hleave (.nil _)⟩
  obtain ⟨e', hlast⟩ := hlast
  exact ⟨e', .cons henter (.cons hlook hlast)⟩

/-- A time in the years 0 to 9999 that is written in the usual form is read back, so that no two are
written alike. A request for an object that gets a slot and finds the object is answered, whatever
the store is: if it names such a time, with 304, without a body and without a read, exactly if the
object has not been changed since then, and with 200 otherwise; if it names the time that an earlier
answer 200 for the object gave, the same holds of the time that the object had then; and if it names
no time that can be read, it is served as if it named none. -/
theorem conditional_requests {σ : Type} {client : StoreClient σ} {e e₁ e₂ : Engine σ}
    {table : MountTable} {r : Http.Request} {verb : Http.Verb} {mount : Mount} {key : String}
    {session : OpenSession} {stat : ObjectStat}
    (hask : Engine.AsksFor table r verb mount key) (hverb : verb = .get ∨ verb = .head)
    (henter : (Engine.enter mount.ref mount.limit).run e = (some (.ok session), e₁))
    (hstat : Engine.answer client session (.operate (.stat key)) e₁ = (.ok (.stat stat), e₂)) :
    (∀ s, HttpDate.HasFourDigits s → HttpDate.read? (HttpDate.format s) = some s
      ∧ ∀ other, HttpDate.HasFourDigits other →
        (HttpDate.format other = HttpDate.format s ↔ other = s))
    ∧ ∃ events response e', Flow.Plays (Engine.respond client) e events e'
      ∧ (Http.serve table r).replay events = some response
      ∧ (Engine.handle client table r).run e = (some response, e')
      ∧ (∀ s, HttpDate.HasFourDigits s →
        r.header? "if-modified-since" = some (Bytes.ofText (HttpDate.format s)) →
        ((response.status = 304 ∧ response.body = .whole [] ∧ ∀ event ∈ events, ¬ event.1.Reads) ↔
          stat.mtime ≤ s)
        ∧ (¬ stat.mtime ≤ s → response.status = 200))
      ∧ (∀ {table₀ r₀ verb₀ mount₀ events₀ response₀}, Engine.AsksFor table₀ r₀ verb₀ mount₀ key →
        (verb₀ = .get ∨ verb₀ = .head) → (Http.serve table₀ r₀).replay events₀ = some response₀ →
        response₀.status = 200 → ∃ session₀ stat₀ time,
          (⟨.within session₀ (.operate (.stat key)), .ok (.stat stat₀)⟩ :
            Sigma GatewayCall.Answer) ∈ events₀
          ∧ response₀.headers.lookup "last-modified" = some time
          ∧ (HttpDate.HasFourDigits stat₀.mtime →
            r.header? "if-modified-since" = some (Bytes.ofText time) →
            (response.status = 304 ↔ stat.mtime ≤ stat₀.mtime)
            ∧ (¬ stat.mtime ≤ stat₀.mtime → response.status = 200)))
      ∧ (Http.Serve.since? r = none →
        Http.serve table r = Http.serve table r.unconditional ∧ response.status = 200) := by
  obtain ⟨e', hplays⟩ : ∃ e', Flow.Plays (Engine.respond client) e
      (Http.Serve.findings r verb mount key session stat) e' := Engine.plays_findings henter hstat
  have hreplay := Http.Serve.replay_findings hask hverb session stat
  have hstatus := Http.Serve.status_object r session key stat (verb == .get)
  -- what a time that the request names decides
  have hsince : ∀ s, HttpDate.HasFourDigits s →
      r.header? "if-modified-since" = some (Bytes.ofText (HttpDate.format s)) →
      Http.Serve.isUnmodified r stat = decide (stat.mtime ≤ s) := by
    intro s hs hheader
    rw [Http.Serve.isUnmodified_eq, Http.Serve.since?_format hs hheader, Option.any_some]
  have hnamed : ∀ s, HttpDate.HasFourDigits s →
      r.header? "if-modified-since" = some (Bytes.ofText (HttpDate.format s)) →
      ((Http.Serve.objectResponse r session key stat (verb == .get)).framed.status = 304 ↔
        stat.mtime ≤ s)
      ∧ (¬ stat.mtime ≤ s →
        (Http.Serve.objectResponse r session key stat (verb == .get)).framed.status = 200) := by
    intro s hs hheader
    rw [hstatus, hsince s hs hheader]
    by_cases hle : stat.mtime ≤ s <;> simp [hle]
  refine ⟨fun s hs => ⟨HttpDate.read?_format hs, fun other hother =>
    HttpDate.format_inj hother hs⟩, _, _, e', hplays, hreplay,
    Flow.run_of_replay hplays hreplay, ?_, ?_, ?_⟩
  · intro s hs hheader
    obtain ⟨hunmodified, hmodified⟩ := hnamed s hs hheader
    refine ⟨⟨fun h => hunmodified.mp h.1, fun hle => ⟨hunmodified.mpr hle, ?_,
      Http.Serve.findings_reads⟩⟩, hmodified⟩
    exact Http.Serve.body_object ((hsince s hs hheader).trans (decide_eq_true hle)) _
  · intro table₀ r₀ verb₀ mount₀ events₀ response₀ hask₀ hverb₀ hreplay₀ hstatus₀
    obtain ⟨session₀, stat₀, hfound, rfl⟩ :=
      Http.Serve.found_of_replay hask₀ hverb₀ hreplay₀ hstatus₀
    exact ⟨session₀, stat₀, _, hfound, Http.Serve.lastModified_object hstatus₀, hnamed stat₀.mtime⟩
  · intro hnone
    refine ⟨Http.Serve.serve_unconditional hnone table, ?_⟩
    rw [hstatus, Http.Serve.isUnmodified_eq, hnone]
    rfl

/-- A mount of a pool that is only read. -/
def oldMount : Mount := ⟨"/old", ⟨0, "past"⟩, 1, {}, .ofSeconds 4⟩

/-- One slot for a pool with one object, which was last changed at 8:49:37 on 6 November 1994. -/
def oldObjects : Engine Clusters :=
  ⟨.blocking, ⟨1, [0], 1, [], [], 0⟩, Switchboard.fresh 1,
    { members := [.memory "one" ⟨Shelf.set default "past"
      ⟨Shelf.set default "k" ⟨[1, 2], 784111777⟩⟩⟩] }⟩

/-- Asks for the object, unless it has not been changed since a time. -/
def askSince (time : String) : Http.Request :=
  { method := "GET", path := "/old/k", headers := [("if-modified-since", Bytes.ofText time)] }

/-- The object has not been changed since it was changed, but it has since the second before. -/
theorem conditional_requests_unchanged :
    HttpDate.format 784111777 = "Sun, 06 Nov 1994 08:49:37 GMT"
      ∧ (∃ response e', (Engine.handle Clusters.client ⟨[oldMount], none⟩
          (askSince (HttpDate.format 784111777))).run oldObjects = (some response, e')
        ∧ response.status = 304 ∧ response.body = .whole [])
      ∧ ∃ response e', (Engine.handle Clusters.client ⟨[oldMount], none⟩
          (askSince (HttpDate.format 784111776))).run oldObjects = (some response, e')
        ∧ response.status = 200 := by
  have hpath : "/old/k" ≠ "" := by decide
  have hdecode : Percent.decode? "/old/k" = some "/old/k" := by decide +kernel
  have hlength : "/old/k".utf8ByteSize ≤ Http.longestPath := by decide +kernel
  have hresolve : MountTable.resolve ⟨[oldMount], none⟩ "/old/k" =
      some ⟨oldMount, some "k"⟩ := by decide +kernel
  have hask : ∀ time, Engine.AsksFor ⟨[oldMount], none⟩ (askSince time) .get oldMount "k" :=
    fun _ => ⟨Http.Serve.locate_eq hpath hdecode hlength hresolve, rfl, rfl, by decide +kernel⟩
  have henter : (Engine.enter oldMount.ref oldMount.limit).run oldObjects =
      (some (.ok ⟨0, none, ⟨0, "past"⟩, .ofSeconds 4⟩),
        { oldObjects with slots := ⟨1, [], 0, [], [], 0⟩ }) := rfl
  have hstat : Engine.answer Clusters.client ⟨0, none, ⟨0, "past"⟩, .ofSeconds 4⟩
      (.operate (.stat "k")) { oldObjects with slots := ⟨1, [], 0, [], [], 0⟩ } =
      (.ok (.stat ⟨2, 784111777⟩), { oldObjects with slots := ⟨1, [], 0, [], [], 0⟩ }) := rfl
  refine ⟨by decide +kernel, ?_, ?_⟩
  · obtain ⟨-, events, response, e', -, -, hhandle, hnamed, -⟩ :=
      conditional_requests (hask (HttpDate.format 784111777)) (.inl rfl) henter hstat
    obtain ⟨hstatus, hbody, -⟩ := (hnamed 784111777 (by decide) rfl).1.mpr (by decide)
    exact ⟨response, e', hhandle, hstatus, hbody⟩
  · obtain ⟨-, events, response, e', -, -, hhandle, hnamed, -⟩ :=
      conditional_requests (hask (HttpDate.format 784111776)) (.inl rfl) henter hstat
    exact ⟨response, e', hhandle, (hnamed 784111776 (by decide) rfl).2 (by decide)⟩

end DavGateway
