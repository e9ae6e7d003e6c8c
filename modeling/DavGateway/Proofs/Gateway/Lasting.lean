import DavGateway.Proofs.Gateway.Hosting

/-!
# What was uploaded lasts

An upload works on an object that nothing else changes: then all the time the object has just the
bytes that were written so far (`Upload.Stands`), and in the end those of the whole body. Operations
that were given up before, however late they are carried out, take nothing away from that, unless
one of them writes or removes this very object and is still outstanding when the upload begins
(`upload_lasts`). That this can happen is shown as well (`upload_overwritten`).
-/

namespace DavGateway

namespace Upload

variable {key : String} {body : Bytes} {place : Place} {ref : PoolRef} {c c' : Clusters}

/-- Unless the upload has failed, nothing outstanding would change its object, and the object has
the bytes that were written so far. -/
structure Stands (ref : PoolRef) (key : String) (body : Bytes) (place : Place) (c : Clusters) :
    Prop where
  pool : (c.poolAt? ref).isSome
  work : place = .refused ∨ c.Quiet ref key ∧ ∀ written, place = .writing written →
    written.getD 0 ≤ body.length ∧ c.content? ref key = written.map body.take

/-- Every operation of the upload, however it ends, leaves the object with the bytes that were
written, or the upload has failed. -/
theorem Stands.passes {operation : Operation} {outcome : Outcome} (h : Stands ref key body place c)
    (hmay : (rules key body).may place operation) (hpasses : c.Passes ref operation outcome c') :
    Stands ref key body ((rules key body).next place operation outcome) c' := by
  refine ⟨hpasses.isSome_poolAt? h.pool, ?_⟩
  have hkey := key_of_may hmay
  rcases h.work with rfl | ⟨hquiet, hwork⟩
  · cases operation <;> exact hmay.elim
  · rcases hpasses.takes h.pool (hkey ▸ hquiet) with ⟨htakes, hquiet'⟩ | ⟨failure, rfl, hfound⟩
    · right
      rw [hkey] at htakes hquiet'
      refine ⟨hquiet', ?_⟩
      rcases step_cases hmay htakes with
        ⟨rfl, -, hcontent, hnext | ⟨hnone, hnext⟩⟩ | ⟨rfl, -, hcontent, hnext⟩
        | ⟨written, data, rfl, -, hdata, hcontent, hnext⟩
      · -- the object is there, and will be removed
        rw [hnext]
        exact nofun
      · rw [hnext, hcontent, hnone]
        rintro _ ⟨⟩
        exact ⟨Nat.zero_le _, rfl⟩
      · rw [hnext, hcontent]
        rintro _ ⟨⟩
        exact ⟨Nat.zero_le _, rfl⟩
      · -- the chunk goes where the bytes that were written end
        obtain ⟨hbound, hbytes⟩ := hwork written rfl
        rw [hnext, hcontent, hbytes]
        rintro _ ⟨⟩
        refine ⟨Bytes.length_le_of_prefix hdata hbound, ?_⟩
        have hold : (written.map body.take).getD [] = body.take (written.getD 0) := by
          cases written with
          | none => rfl
          | some n => rfl
        have hlength : (body.take (written.getD 0)).length = written.getD 0 :=
          List.length_take_of_le hbound
        have hoverlay := Bytes.overlay_length (body.take (written.getD 0)) data
        rw [hlength] at hoverlay
        rw [hold, hoverlay, Bytes.take_append_of_prefix hdata]
        rfl
    · exact .inl (next_refused hfound)

end Upload

/-- What is at rest is looked up and read as it is. -/
theorem Clusters.Rests.download {c c' : Clusters} {ref : PoolRef} {key : String} {bytes : Bytes}
    {operation : Operation} {outcome : Outcome} (h : c.Rests ref key (some bytes))
    (hmay : (Download.rules key bytes).may () operation)
    (hpasses : c.Passes ref operation outcome c') :
    (Download.rules key bytes).can () operation outcome ∧ c'.Rests ref key (some bytes) := by
  obtain ⟨hkey, hchanges⟩ : operation.key = key ∧ ¬ operation.Changes key := by
    rcases hmay with rfl | ⟨length, offset, rfl⟩
    · exact ⟨rfl, nofun⟩
    · exact ⟨rfl, nofun⟩
  have hrests := h.passes hpasses fun _ => hchanges
  refine ⟨?_, hrests⟩
  rcases hpasses.takes h.pool (hkey ▸ h.quiet) with ⟨htakes, -⟩ | hfailed
  · left
    rw [hkey, h.content, hrests.content] at htakes
    exact htakes
  · exact .inr hfailed

namespace Engine

variable {e e' : Engine Clusters} {others : List OpenSession} {table : MountTable}
variable {r : Http.Request} {ref : PoolRef} {key : String} {response : Http.Response} {x : Exchange}

/-! ## One visit -/

/-- A request that is answered 201 has left the object at rest with its body. -/
theorem Consistent.upload (h : e.Consistent others) (hpool : (e.store.poolAt? ref).isSome)
    (hquiet : e.store.Quiet ref key) (hfor : r.IsFor table .put ref key)
    (hhandle : (handle Clusters.client table r).run e = (some response, e'))
    (hstatus : response.status = 201) :
    response.body.session? = none ∧ e'.Consistent others
      ∧ e'.store.Rests ref key (some r.bytes) := by
  obtain ⟨mount, hlocated, rfl, hmethod⟩ := hfor
  have hstart : e.Hosts mount.ref (.before : Http.Stage Upload.Place) others
      ∧ Upload.Stands mount.ref key r.bytes .looking e.store :=
    ⟨⟨h, nofun⟩, hpool, .inr ⟨hquiet, nofun⟩⟩
  have hobeys := Http.put_obeys hlocated hmethod
  obtain ⟨stage, ⟨hheld, hnone, hwritten⟩, hhosts, hstands⟩ :=
    (hobeys.run (upholds_stage others fun hmay hstands hpasses =>
      ⟨trivial, Upload.Stands.passes hstands hmay hpasses⟩) hstart).1 hhandle
  have hconsistent := hhosts.consistent
  rw [hheld] at hconsistent
  rw [hwritten hstatus] at hstands
  obtain ⟨hpool', hrefused | ⟨hquiet', hcontent⟩⟩ := hstands
  · cases hrefused
  · refine ⟨hnone, hconsistent, hpool', hquiet', ?_⟩
    rw [(hcontent _ rfl).2, Option.map_some, List.take_length]

/-- After a visit that was answered 201 the object is at rest with the body. -/
theorem Consistent.uploaded {put : Visit} (h : e.Consistent others)
    (hpool : (e.store.poolAt? ref).isSome) (hquiet : e.store.Quiet ref key)
    (hfor : put.request.IsFor table .put ref key)
    (hvisit : (visit Clusters.client table put).run e = (some x, e')) (hstatus : x.status = 201) :
    e'.Consistent others ∧ e'.store.Rests ref key (some put.request.bytes) := by
  rw [visit_run] at hvisit
  cases hhandle : (handle Clusters.client table put.request).run e with
  | mk response? e₁ =>
    rw [hhandle] at hvisit
    cases response? with
    | none => cases hvisit
    | some response =>
      cases hvisit
      obtain ⟨hnone, hconsistent, hrests⟩ := h.upload hpool hquiet hfor hhandle hstatus
      -- the body of the response asks for nothing
      have hkeeps : response.body.Keeps (Change.Spares ref key) := by
        cases hbody : response.body with
        | whole bytes => trivial
        | streamed session flow =>
          rw [hbody] at hnone
          cases hnone
          trivial
      have hstart : e₁.Consistent (response.body.session?.toList ++ others)
          ∧ e₁.store.Rests ref key (some put.request.bytes) := by
        rw [hnone]
        exact ⟨hconsistent, hrests⟩
      exact (upholds_consistent (Clusters.keeps_rests ref key _) others).readAsFar hkeeps hstart
        put.patience

/-- After a visit that was answered 201 the object stays at rest with the body, until another visit
uploads or removes it. -/
theorem Consistent.upload_rests {put : Visit} {e₁ : Engine Clusters} (h : e.Consistent [])
    (hpool : (e.store.poolAt? ref).isSome) (hput : put.request.IsFor table .put ref key)
    {earlier later : List Happening} (hquiet : (e.after table earlier).store.Quiet ref key)
    (hvisit : (visit Clusters.client table put).run (e.after table earlier) = (some x, e₁))
    (hcreated : x.status = 201) (hlater : ∀ v, .visit v ∈ later →
      ¬ v.request.IsFor table .put ref key ∧ ¬ v.request.IsFor table .delete ref key) :
    (e₁.after table later).Consistent []
      ∧ (e₁.after table later).store.Rests ref key (some put.request.bytes) := by
  -- what was done before the upload leaves the engine consistent, and the pool where it is
  obtain ⟨hconsistent, hpool'⟩ := h.after (Clusters.keeps_pool ref)
    (fun v _ change _ => trivial) hpool
  obtain ⟨hconsistent', hrests⟩ := hconsistent.uploaded hpool' hquiet hput hvisit hcreated
  -- nobody else works on the object from there on
  exact hconsistent'.after (Clusters.keeps_rests ref key _)
    (fun v hv change hgranted => Http.Request.spares (hlater v hv).1 (hlater v hv).2 hgranted)
    hrests

/-- What is at rest is what a client gets that reads the whole answer without a failure. -/
theorem Consistent.download {bytes : Bytes} (h : e.Consistent others)
    (hrests : e.store.Rests ref key (some bytes)) (hfor : r.IsFor table .get ref key)
    (hvisit : (visit Clusters.client table ⟨r, none⟩).run e = (some x, e'))
    (hstatus : x.status = 200) (hfailure : x.failure = none) : x.chunks.flatten = bytes := by
  obtain ⟨mount, hlocated, rfl, hmethod⟩ := hfor
  rw [visit_run] at hvisit
  cases hhandle : (handle Clusters.client table r).run e with
  | mk response? e₁ =>
    simp only [hhandle] at hvisit
    cases response? with
    | none => cases hvisit
    | some response =>
      cases hvisit
      have hstart : e.Hosts mount.ref (.before : Http.Stage Unit) others
          ∧ e.store.Rests mount.ref key (some bytes) := ⟨⟨h, nofun⟩, hrests⟩
      have hobeys := Http.get_obeys bytes hlocated hmethod
      obtain ⟨stage, ⟨hheld, hdownloads⟩, hhosts, hrests₁⟩ :=
        (hobeys.run (upholds_stage others fun hmay hrests hpasses =>
          Clusters.Rests.download hrests hmay hpasses) hstart).1 hhandle
      obtain ⟨session, hbody⟩ := hdownloads hstatus
      rw [hbody] at hheld
      cases stage with
      | before | after place => cases hheld
      | inside session' place =>
        cases hheld
        obtain ⟨-, hflatten⟩ := hhosts.collect
          (fun hmay hrests hpasses => Clusters.Rests.download hrests hmay hpasses)
          (Download.run_brings Download.usualChunk) hrests₁
        rcases hcollect : (Download.run Download.usualChunk key bytes.length).run.collect
            (bodyAnswer Clusters.client (some session)) e₁ with ⟨⟨chunks, result⟩, e₂⟩
        rw [hcollect] at hflatten
        have hread := readBody_streamed hcollect
        rw [← hbody] at hread
        have hchunks : (readAsFar Clusters.client response.body none e₁).1.1 = chunks :=
          congrArg (fun answered => answered.1.1) hread
        rw [hchunks]
        cases result with
        | ok => exact hflatten rfl
        | error failure =>
          have hended : (readAsFar Clusters.client response.body none e₁).1.2 = some failure :=
            congrArg (fun answered => answered.1.2) hread
          cases hended.symm.trans hfailure

end Engine

/-! ## All that can happen -/

/-- Uploads last. Requests are made of a gateway over memory clusters one after the other, with any
pauses between them, and every operation takes as long as it takes. Those that are given up are
carried out when their time has come. An upload that begins when none of these that would change its
object is outstanding, and that is answered 201, has left the object with its body. Until the next
upload or removal of the object the bytes stay the same, and every client that is sent the object
and reads it to its end gets them. -/
theorem upload_lasts {s : GatewaySettings} {mounts : List Mount} {c : Clusters} {g : Gateway}
    (hstart : Gateway.ofMounts s mounts c = .ok g)
    (hpools : ∀ m ∈ mounts, ∃ p, c.poolAt? m.ref = some p) (hidle : c.dispatcher.jobs = [])
    {ref : PoolRef} {key : String} {put : Visit} (hput : put.request.IsFor g.table .put ref key)
    (earlier : List Engine.Happening) (hquiet : (g.after earlier).engine.store.Quiet ref key)
    {x : Exchange} (hvisit : ((g.after earlier).visit put).1 = some x) (hcreated : x.status = 201)
    (later : List Engine.Happening) (hlater : ∀ v, .visit v ∈ later →
      ¬ v.request.IsFor g.table .put ref key ∧ ¬ v.request.IsFor g.table .delete ref key) :
    (((g.after earlier).visit put).2.after later).engine.store.content? ref key =
      some put.request.bytes
    ∧ ∀ r y, r.IsFor g.table .get ref key →
      ((((g.after earlier).visit put).2.after later).visit ⟨r, none⟩).1 = some y →
      y.status = 200 → y.failure = none → y.chunks.flatten = put.request.bytes := by
  obtain ⟨hconsistent, hpool⟩ := Gateway.ofMounts_consistent hstart hpools hidle
  rcases hserved : (Engine.visit Clusters.client g.table put).run (g.after earlier).engine with
    ⟨x?, e₂⟩
  have hvisited : (g.after earlier).visit put = (x?, { g with engine := e₂ }) :=
    Gateway.visit_eq hserved
  rw [hvisited] at hvisit ⊢
  cases hvisit
  obtain ⟨hconsistent₃, hrests₃⟩ :=
    hconsistent.upload_rests (hpool hput) hput hquiet hserved hcreated hlater
  refine ⟨hrests₃.content, ?_⟩
  intro r y hget hanswer hstatus hfailure
  rcases hserved₃ : (Engine.visit Clusters.client g.table ⟨r, none⟩).run
      (e₂.after g.table later) with ⟨y?, e₄⟩
  have hvisited₃ : ({ g with engine := e₂.after g.table later } : Gateway).visit ⟨r, none⟩ =
      (y?, { g with engine := e₄ }) := Gateway.visit_eq hserved₃
  have hsame : y? = some y := (congrArg Prod.fst hvisited₃).symm.trans hanswer
  rw [hsame] at hserved₃
  exact hconsistent₃.download hrests₃ hget hserved₃ hstatus hfailure

/-- An upload of some bytes. -/
def Visit.upload (path : String) (bytes : Bytes) : Visit :=
  ⟨{ method := "PUT", path := path, body := [.ok bytes] }, none⟩

/-- A download that is read to its end. -/
def Visit.download (path : String) : Visit := ⟨{ method := "GET", path := path }, none⟩

/-- A mount that permits everything. -/
def slowMount : Mount := ⟨"/m", ⟨0, "slow"⟩, 1, ⟨true, true, true, true⟩, .ofSeconds 4⟩

/-- One memory cluster with an empty pool. The second operation that is handed over takes ten
seconds, all others no time. -/
def slowClusters : Clusters where
  members := [.memory "slow" ⟨Shelf.set default "slow" ⟨default⟩⟩]
  dispatcher := { delay := fun number => .ofSeconds (if number = 1 then 10 else 0) }

/-- A gateway with one slot that serves the pool. -/
def slowGateway : Gateway where
  table := ⟨[slowMount], none⟩
  engine := ⟨.async, ⟨1, [0], 1, [], [], 0⟩, Switchboard.fresh 1, slowClusters⟩

theorem ofMounts_slow :
    Gateway.ofMounts { scheduling := ⟨.async, 1⟩ } [slowMount] slowClusters = .ok slowGateway :=
  Gateway.ofMounts_singleton rfl rfl

theorem slow_isFor {r : Http.Request} {verb : Http.Verb} (hpath : r.path = "/m/k")
    (hmethod : Http.Verb.ofMethod? r.method = some verb) :
    r.IsFor slowGateway.table verb ⟨0, "slow"⟩ "k" := by
  refine ⟨slowMount, ?_, rfl, hmethod⟩
  unfold Http.Serve.locate
  rw [hpath]
  rfl

/-- Of two uploads the first is given up after four seconds, and its bytes are written after ten. -/
def afterLateWrite (first second : Visit) : Gateway :=
  ((slowGateway.after [.visit first]).visit second).2.after [.pause (.ofSeconds 10)]

/-- The upload that is given up is one of another object. -/
theorem upload_lasts_late_write :
    (afterLateWrite (.upload "/m/l" [65, 65]) (.upload "/m/k" [66])).engine.store.content?
      ⟨0, "slow"⟩ "l" = some [65, 65]
    ∧ (afterLateWrite (.upload "/m/l" [65, 65]) (.upload "/m/k" [66])).engine.store.content?
      ⟨0, "slow"⟩ "k" = some [66]
    ∧ ∃ y, ((afterLateWrite (.upload "/m/l" [65, 65]) (.upload "/m/k" [66])).visit
      (.download "/m/k")).1 = some y ∧ y.status = 200 ∧ y.failure = none
        ∧ y.chunks.flatten = [66] := by
  have hpools : ∀ m ∈ [slowMount], ∃ p, slowClusters.poolAt? m.ref = some p := by
    intro m hm
    rw [List.mem_singleton.mp hm]
    exact ⟨{}, by decide +kernel⟩
  have hlater : ∀ v, .visit v ∈ [Engine.Happening.pause (.ofSeconds 10)] →
      ¬ v.request.IsFor slowGateway.table .put ⟨0, "slow"⟩ "k"
        ∧ ¬ v.request.IsFor slowGateway.table .delete ⟨0, "slow"⟩ "k" := by
    intro v hv
    cases List.mem_singleton.mp hv
  have hput : (Visit.upload "/m/k" [66]).request.IsFor slowGateway.table .put ⟨0, "slow"⟩ "k" :=
    slow_isFor rfl rfl
  have hcreated : ((slowGateway.after [.visit (.upload "/m/l" [65, 65])]).visit
      (.upload "/m/k" [66])).1 = some ⟨201, [("content-length", "0")], [], none⟩ := by decide +kernel
  obtain ⟨hcontent, hread⟩ := upload_lasts ofMounts_slow hpools rfl hput
    [.visit (.upload "/m/l" [65, 65])] (by decide +kernel) hcreated rfl
    [.pause (.ofSeconds 10)] hlater
  have hget : (Visit.download "/m/k").request.IsFor slowGateway.table .get ⟨0, "slow"⟩ "k" :=
    slow_isFor rfl rfl
  have hsent : ((afterLateWrite (.upload "/m/l" [65, 65]) (.upload "/m/k" [66])).visit
      (.download "/m/k")).1 = some ⟨200, [("content-type", "application/octet-stream"),
        ("last-modified", "Thu, 01 Jan 1970 00:00:00 GMT"), ("content-length", "1")], [[66]],
        none⟩ := by decide +kernel
  exact ⟨by decide +kernel, hcontent, _, hsent, rfl, rfl, hread _ _ hget hsent rfl rfl⟩

/-- The upload that is given up is one of the same object. The other one is answered 201, and then
its bytes are overwritten. -/
theorem upload_overwritten :
    Gateway.ofMounts { scheduling := ⟨.async, 1⟩ } [slowMount] slowClusters = .ok slowGateway
    ∧ (Visit.upload "/m/k" [66, 66]).request.IsFor slowGateway.table .put ⟨0, "slow"⟩ "k"
    ∧ (Visit.download "/m/k").request.IsFor slowGateway.table .get ⟨0, "slow"⟩ "k"
    ∧ ((slowGateway.after [.visit (.upload "/m/k" [65, 65, 65])]).visit
      (.upload "/m/k" [66, 66])).1.map Exchange.status = some 201
    ∧ ((afterLateWrite (.upload "/m/k" [65, 65, 65]) (.upload "/m/k" [66, 66])).visit
      (.download "/m/k")).1.map (fun y => (y.status, y.chunks.flatten, y.failure)) =
        some (200, [65, 65, 65], none) :=
  ⟨ofMounts_slow, slow_isFor rfl rfl, slow_isFor rfl rfl, by decide +kernel, by decide +kernel⟩

end DavGateway
