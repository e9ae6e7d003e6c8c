import DavGateway.Proofs.Gateway.Consistency
import DavGateway.Proofs.Gateway.Room
import DavGateway.Proofs.Http.Stages

/-!
# New pools

A request for a new pool makes one call to its cluster, or is refused before (`serve_wantsPool`).
Between such requests a gateway may do whatever it does: pools that are there stay there
(`Gateway.opens_after`), and there stays room for the others (`Gateway.HasRoom.after`). So a pool is
made at most once, and refused only if it is there (`pools_made_once`).
-/

namespace DavGateway

/-! ## What the clusters keep while they serve -/

namespace Clusters

variable {c : Clusters}

/-- All that is outstanding makes changes that may be made. -/
def Hands (c : Clusters) (may : Change → Prop) : Prop :=
  ∀ job ∈ c.dispatcher.jobs, (SessionCall.operate job.operation).Makes may job.pool

/-- What new pools and operations keep, and does not depend on what is outstanding. -/
structure Stable (may : Change → Prop) (inv : Clusters → Prop) : Prop where
  createPool : ∀ {c ref}, inv c → inv (c.createPool ref).2
  perform : ∀ {c ref operation}, (SessionCall.operate operation).Makes may ref → inv c →
    inv (c.perform ref operation).2
  dispatcher : ∀ {c : Clusters} {d}, inv c → inv { c with dispatcher := d }
  date : ∀ {c : Clusters} {now}, inv c → inv { c with now := now }

variable {may : Change → Prop} {inv : Clusters → Prop}

theorem Stable.carryOut (h : Stable may inv) {jobs : List Job}
    (hjobs : ∀ job ∈ jobs, (SessionCall.operate job.operation).Makes may job.pool) (hc : inv c) :
    inv (Dispatcher.carryOut Clusters.perform jobs c) := by
  induction jobs generalizing c with
  | nil => exact hc
  | cons job rest ih =>
    obtain ⟨hfirst, hrest⟩ := List.forall_mem_cons.mp hjobs
    exact ih hrest (h.perform hfirst hc)

/-- It is kept while time passes and what is outstanding is carried out. -/
theorem Stable.await (h : Stable may inv) (hhands : c.Hands may) (hc : inv c) (ticket : Nat)
    (limit : Span) :
    inv (c.await ticket limit).2 ∧ (c.await ticket limit).2.Hands may := by
  rcases hrun : Dispatcher.runJobs Clusters.perform ticket (c.dispatcher.clock + limit.nanos)
    c.dispatcher.jobs c with ⟨completed, left, reached, c₁⟩
  obtain ⟨done, hjobs, rfl, -⟩ := Dispatcher.runJobs_split hrun
  have hawait : (c.await ticket limit).2 =
      { Dispatcher.carryOut Clusters.perform done c with dispatcher :=
        { c.dispatcher with jobs := left, clock := max c.dispatcher.clock reached } } := by
    unfold Clusters.await Dispatcher.await
    rw [hrun]
  unfold Hands at hhands
  rw [hjobs] at hhands
  rw [hawait]
  refine ⟨h.dispatcher (h.carryOut (fun job hjob => ?_) hc), fun job hjob => ?_⟩
  · exact hhands job (List.mem_append_left _ hjob)
  · exact hhands job (List.mem_append_right _ hjob)

theorem Stable.keeps (h : Stable may inv) :
    Clusters.client.Keeps may fun c => inv c ∧ c.Hands may where
  createPool := by
    intro ref c _ hc
    refine ⟨h.createPool hc.1, ?_⟩
    show (c.createPool ref).2.Hands may
    unfold Hands
    rw [(c.createPool_keeps ref).2]
    exact hc.2
  perform := by
    intro ref operation c hmakes hc
    refine ⟨h.perform hmakes hc.1, ?_⟩
    show (c.perform ref operation).2.Hands may
    unfold Hands
    rw [c.perform_dispatcher]
    exact hc.2
  list := by
    intro ref c hc
    show inv (c.list ref).2 ∧ (c.list ref).2.Hands may
    rw [c.list_snd]
    exact hc
  advance := fun hc => hc
  allocate := fun hc => hc
  submit := by
    intro ref operation ticket c hmakes hc
    refine ⟨h.dispatcher hc.1, fun job hjob => ?_⟩
    rcases List.mem_cons.mp ((Dispatcher.insertJob_perm _ _).mem_iff.mp hjob) with rfl | hold
    · exact hmakes
    · exact hc.2 job hold
  await := fun hc => h.await hc.2 hc.1 _ _

end Clusters

/-! ## Gateways -/

namespace Engine

variable {e : Engine Clusters} {table : MountTable} {may : Change → Prop} {inv : Clusters → Prop}

/-- What new pools and operations keep is kept by whatever happens next. -/
theorem stable_happen (h : Clusters.Stable may inv) {happening : Happening}
    (hmay : ∀ v, happening = .visit v → ∀ change, v.request.IsGranted table change → may change)
    (he : inv e.store ∧ e.store.Hands may) :
    inv (happen table e happening).store ∧ (happen table e happening).store.Hands may := by
  cases happening with
  | visit v => exact StoreClient.Keeps.visit v (h.keeps.mono (hmay v rfl)) he
  | pause span => exact h.await he.2 he.1 _ _
  | date now => exact ⟨h.date he.1, he.2⟩

theorem stable_after (h : Clusters.Stable may inv) {happenings : List Happening}
    (hmay : ∀ v, .visit v ∈ happenings → ∀ change, v.request.IsGranted table change → may change)
    (he : inv e.store ∧ e.store.Hands may) :
    inv (e.after table happenings).store ∧ (e.after table happenings).store.Hands may := by
  induction happenings generalizing e with
  | nil => exact he
  | cons happening rest ih =>
    have hstep := stable_happen h
      (fun v hv => hmay v (List.mem_cons.mpr (.inl hv.symm))) he
    exact ih (fun v hv => hmay v (List.mem_cons_of_mem _ hv)) hstep

end Engine

/-! ## Requests for pools -/

namespace Http

/-- The request is one for a new pool. -/
def Request.WantsPool (r : Request) (table : MountTable) (ref : PoolRef) : Prop :=
  ∃ mount key, Serve.locate table r = .ok ⟨mount, some key⟩
    ∧ Verb.ofMethod? r.method = some .mkcol
    ∧ ref = ⟨mount.ref.cluster, Text.withoutEndSlashes key⟩

/-- A response that is neither 201 nor 409, and whose body is known. -/
def Response.IsAside (response : Response) : Prop :=
  response.status ≠ 201 ∧ response.status ≠ 409 ∧ ∃ bytes, response.body = .whole bytes

/-- The response to a request for a pool, by what the call for it answers. -/
structure Response.Tells (response : Response) (answer : Except Failure Unit) : Prop where
  made : response.status = 201 ↔ answer = .ok ()
  refused : response.status = 409 → answer ≠ .ok ()
  whole : ∃ bytes, response.body = .whole bytes

theorem Response.isAside_of_problem {problem : Problem} (hmade : problem.status ≠ 201)
    (hconflict : problem.status ≠ 409) : (Response.ofResult (.error problem)).IsAside := by
  unfold IsAside ofResult
  rw [framed_status, framed_body]
  exact ⟨hmade, hconflict, _, rfl⟩

theorem Response.tells_made : (Response.ofResult (.ok { status := 201 })).Tells (.ok ()) where
  made := by
    unfold ofResult
    rw [framed_status]
    simp
  refused := by
    unfold ofResult
    rw [framed_status]
    nofun
  whole := by
    unfold ofResult
    rw [framed_body]
    exact ⟨_, rfl⟩

theorem Response.tells_refused (failure : Failure) :
    (Response.ofResult (.error (.ofFailure failure))).Tells (.error failure) where
  made := by
    unfold ofResult
    rw [framed_status]
    have hrefuses : 400 ≤ (Problem.ofFailure failure).status := Problem.refuses_ofFailure () failure
    constructor
    · intro hstatus
      have hsame : (Problem.ofFailure failure).status = 201 := hstatus
      omega
    · nofun
  refused := fun _ => nofun
  whole := by
    unfold ofResult
    rw [framed_body]
    exact ⟨_, rfl⟩

/-- A name that is refused is a bad request. -/
theorem status_of_checkPool {name : String} {failure : Failure}
    (h : Names.checkPool name = .error failure) : (Problem.ofFailure failure).status = 400 := by
  unfold Names.checkPool at h
  split at h
  · cases h
    rfl
  · cases h

/-- A request for a new pool makes one call, or is refused before. -/
theorem serve_wantsPool {r : Request} {table : MountTable} {ref : PoolRef}
    (h : r.WantsPool table ref) :
    (∃ response, serve table r = .done response ∧ response.IsAside)
      ∨ ∃ resume, serve table r = .ask (.createPool ref) resume
        ∧ Names.checkPool ref.pool = .ok ()
        ∧ ∀ answer, ∃ response, resume answer = .done response ∧ response.Tells answer := by
  obtain ⟨mount, key, hlocated, hverb, rfl⟩ := h
  have hrequest : Serve.request table r = Serve.onKey r mount .mkcol key := by
    rw [Serve.request_eq hlocated, hverb]
  rw [serve_eq, hrequest]
  unfold Serve.onKey
  split
  · -- the mount does not allow it
    left
    exact ⟨_, rfl, Response.isAside_of_problem nofun nofun⟩
  · rw [if_pos rfl]
    unfold Serve.makePool GatewayFlow.createPool
    split
    · next failure hname =>
      left
      have hstatus := status_of_checkPool hname
      exact ⟨_, rfl, Response.isAside_of_problem (by omega) (by omega)⟩
    · next hname =>
      right
      refine ⟨_, rfl, hname, fun answer => ?_⟩
      cases answer with
      | ok => exact ⟨_, rfl, Response.tells_made⟩
      | error failure => exact ⟨_, rfl, Response.tells_refused failure⟩

end Http

namespace Engine

variable {σ : Type} {client : StoreClient σ} {table : MountTable} {v : Visit} {e e' : Engine σ}

/-- A body that is known is read without a call. -/
theorem visit_whole {response : Http.Response} {bytes : Bytes}
    (hbody : response.body = .whole bytes)
    (hserved : (handle client table v.request).run e = (some response, e')) :
    ∃ x, (visit client table v).run e = (some x, e') ∧ x.status = response.status := by
  have hstays : (readAsFar client response.body v.patience e').2 = e' := by
    rw [hbody]
    cases v.patience <;> rfl
  rw [visit_run, hserved]
  simp only [hstays]
  exact ⟨_, rfl, rfl⟩

/-- A visit with a request for a new pool makes one call, or leaves the engine as it is and is
answered neither 201 nor 409. -/
theorem visit_wantsPool {ref : PoolRef} (h : v.request.WantsPool table ref) (e : Engine Clusters) :
    (∃ x, (visit Clusters.client table v).run e = (some x, e) ∧ x.status ≠ 201 ∧ x.status ≠ 409)
    ∨ ∃ x, (visit Clusters.client table v).run e =
        (some x, { e with store := (e.store.createPool ref).2 })
      ∧ Names.checkPool ref.pool = .ok ()
      ∧ (x.status = 201 ↔ (e.store.createPool ref).1 = .ok ())
      ∧ (x.status = 409 → (e.store.createPool ref).1 ≠ .ok ()) := by
  let serving := (Http.serve table v.request).run (respond Clusters.client)
  rcases Http.serve_wantsPool h with ⟨response, hserve, haside⟩ | ⟨resume, hserve, hname, hresume⟩
  · obtain ⟨hmade, hconflict, bytes, hbody⟩ := haside
    have hserved : serving.run e = (some response, e) := by
      simp only [serving, hserve]
      rfl
    obtain ⟨x, hrun, hstatus⟩ := visit_whole hbody hserved
    rw [← hstatus] at hmade hconflict
    exact .inl ⟨x, hrun, hmade, hconflict⟩
  · obtain ⟨response, hdone, htells⟩ := hresume (e.store.createPool ref).1
    have hmade : (respond Clusters.client (.createPool ref)).run e =
        (some (e.store.createPool ref).1, { e with store := (e.store.createPool ref).2 }) := rfl
    have hserved : serving.run e =
        (some response, { e with store := (e.store.createPool ref).2 }) := by
      simp only [serving, hserve]
      rw [Flow.run_ask, hmade]
      simp only [hdone]
      rfl
    obtain ⟨bytes, hbody⟩ := htells.whole
    obtain ⟨x, hrun, hstatus⟩ := visit_whole hbody hserved
    have hcreated := htells.made
    have hrefused := htells.refused
    rw [← hstatus] at hcreated hrefused
    exact .inr ⟨x, hrun, hname, hcreated, hrefused⟩

end Engine

namespace Gateway

variable {g g₁ : Gateway} {v : Visit} {x? : Option Exchange} {x : Exchange} {ref : PoolRef}

theorem visit_table (h : g.visit v = (x?, g₁)) : g₁.table = g.table := by
  unfold visit at h
  obtain ⟨-, rfl⟩ := Prod.mk.inj h
  rfl

/-- A visit with a request for a new pool has an exchange, and makes one call at most. -/
theorem visit_wantsPool (h : v.request.WantsPool g.table ref) (hvisit : g.visit v = (x?, g₁)) :
    ∃ x, x? = some x ∧ ((g₁ = g ∧ x.status ≠ 201 ∧ x.status ≠ 409)
      ∨ ∃ answer, g.engine.store.createPool ref = (answer, g₁.engine.store)
        ∧ Names.checkPool ref.pool = .ok ()
        ∧ (x.status = 201 ↔ answer = .ok ()) ∧ (x.status = 409 → answer ≠ .ok ())) := by
  rcases Engine.visit_wantsPool h g.engine with
    ⟨x, hrun, hmade, hconflict⟩ | ⟨x, hrun, hname, hmade, hrefused⟩
  · obtain ⟨rfl, rfl⟩ := Prod.mk.inj ((visit_eq hrun).symm.trans hvisit)
    exact ⟨x, rfl, .inl ⟨rfl, hmade, hconflict⟩⟩
  · obtain ⟨rfl, rfl⟩ := Prod.mk.inj ((visit_eq hrun).symm.trans hvisit)
    exact ⟨x, rfl, .inr ⟨_, rfl, hname, hmade, hrefused⟩⟩

/-- An answer 201 says that the pool has been made. -/
theorem visit_made (h : v.request.WantsPool g.table ref) (hvisit : g.visit v = (some x, g₁))
    (hstatus : x.status = 201) : (g.engine.store.createPool ref).1 = .ok ()
      ∧ g₁.engine.store = (g.engine.store.createPool ref).2 := by
  obtain ⟨x', hx, ⟨-, hother, -⟩ | ⟨answer, hcreate, -, hmade, -⟩⟩ := visit_wantsPool h hvisit
  · cases hx
    exact absurd hstatus hother
  · cases hx
    rw [hcreate]
    exact ⟨hmade.mp hstatus, rfl⟩

/-- An answer 409 says that the pool cannot be made. -/
theorem visit_refused (h : v.request.WantsPool g.table ref) (hvisit : g.visit v = (some x, g₁))
    (hstatus : x.status = 409) : (g.engine.store.createPool ref).1 ≠ .ok ()
      ∧ Names.checkPool ref.pool = .ok () := by
  obtain ⟨x', hx, ⟨-, -, hother⟩ | ⟨answer, hcreate, hname, -, hrefused⟩⟩ :=
    visit_wantsPool h hvisit
  · cases hx
    exact absurd hstatus hother
  · cases hx
    rw [hcreate]
    exact ⟨hrefused hstatus, hname⟩

/-- A pool that is there stays there, whatever happens. -/
theorem opens_after (h : g.engine.store.Opens ref) (happenings : List Engine.Happening) :
    (g.after happenings).engine.store.Opens ref := by
  have hstable : Clusters.Stable (fun _ => True) fun c => c.Opens ref :=
    { createPool := fun hopens => (Clusters.createPool_retains _ _).opens hopens
      perform := fun _ hopens => (Clusters.perform_retains _ _ _).opens hopens
      dispatcher := fun {c d} hopens => (Clusters.Retains.dispatcher c d).opens hopens
      date := fun {c now} hopens => (Clusters.Retains.date c now).opens hopens }
  have hhands : g.engine.store.Hands fun _ => True := fun _ _ _ _ => trivial
  exact (Engine.stable_after hstable (fun _ _ _ _ => trivial) ⟨h, hhands⟩).1

/-- The mount is one that requests lead to. -/
def Serves (g : Gateway) (mount : Mount) : Prop :=
  mount ∈ g.table.mounts ∨ g.table.fallback = some mount

/-- While objects are kept elsewhere than in the folder of the cluster, there is room for the pool,
or it is there. -/
theorem admits_after {kept : PoolRef → Prop} (hadmits : g.engine.store.Admits ref)
    (hapart : g.engine.store.Apart kept ref.cluster)
    (hhands : g.engine.store.Hands (Change.Within kept))
    (hmounts : ∀ mount, g.Serves mount → kept mount.ref) (happenings : List Engine.Happening) :
    (g.after happenings).engine.store.Admits ref := by
  have hstable : Clusters.Stable (Change.Within kept)
      fun c => c.Admits ref ∧ c.Apart kept ref.cluster :=
    { createPool := fun {c other} h =>
        ⟨h.1.createPool other, h.2.retains (c.createPool_retains other)⟩
      perform := fun {c other operation} hmakes h =>
        ⟨h.1.perform h.2 hmakes, h.2.retains (c.perform_retains other operation)⟩
      dispatcher := fun {c d} h =>
        ⟨h.1.retains (.dispatcher c d) fun _ _ _ _ hfile => hfile, h.2⟩
      date := fun {c now} h => ⟨h.1.retains (.date c now) fun _ _ _ _ hfile => hfile, h.2⟩ }
  refine (Engine.stable_after hstable ?_ ⟨⟨hadmits, hapart⟩, hhands⟩).1.1
  rintro v - change ⟨d, verb, hlocated, -, hgrants⟩
  have hmount := hmounts d.mount (Http.Serve.locate_mount hlocated)
  cases change with
  | create pool => trivial
  | write pool key =>
    obtain ⟨-, -, hpool, -⟩ := hgrants
    exact hpool ▸ hmount
  | remove pool key =>
    obtain ⟨-, hpool, -⟩ := hgrants
    exact hpool ▸ hmount

/-- The cluster of the pool is in memory; or it is in a directory where the pool is or can be made,
nothing is outstanding, and no mount keeps its objects in the folder of the cluster itself. -/
inductive HasRoom (g : Gateway) (ref : PoolRef) : Prop
  | memory {identity : String} {cluster : MemoryCluster}
      (hmember : g.engine.store.members[ref.cluster]? = some (.memory identity cluster))
  | directory (hadmits : g.engine.store.Admits ref)
      (hapart : g.engine.store.Apart (fun pool => ∃ mount, g.Serves mount ∧ mount.ref = pool)
        ref.cluster)
      (hidle : g.engine.store.dispatcher.jobs = [])

/-- Whatever happens, there is room for the pool, or it is there. -/
theorem HasRoom.after (h : g.HasRoom ref) (hname : Names.checkPool ref.pool = .ok ())
    (happenings : List Engine.Happening) : (g.after happenings).engine.store.Admits ref := by
  cases h with
  | @memory identity cluster hmember =>
    have hadmits : g.engine.store.Admits ref :=
      Clusters.admits_iff.mpr ⟨_, hmember, Cluster.admits_memory.mpr (.inl hname)⟩
    have hapart : g.engine.store.Apart (fun _ => True) ref.cluster := by
      intro directory hdirectory
      cases hmember.symm.trans hdirectory
    refine admits_after hadmits hapart ?_ (fun _ _ => trivial) happenings
    intro job hjob change hchange
    cases change <;> trivial
  | directory hadmits hapart hidle =>
    refine admits_after hadmits hapart ?_ (fun mount hmount => ⟨mount, hmount, rfl⟩) happenings
    intro job hjob
    rw [hidle] at hjob
    exact absurd hjob List.not_mem_nil

end Gateway

/-- A cluster that was just connected makes a pool with a name that it takes the first time, and
refuses it every time after that; it finds just the pools that were made. A pool that is found is
found from then on, and new pools leave its objects as they are. So a gateway answers 201 to at most
one of the requests for a pool, and 409 only if the pool is there. In a directory the name with the
identity of the cluster is not taken, and there must be no file where the pool would be. -/
theorem pools_made_once {c : Cluster} {d : Disk} {g : Gateway} {ref : PoolRef} :
    (∀ (calls : List ClusterCall) {name : String}, c.Fresh d → c.Takes name →
      ∀ {s : Cluster × Disk}, s = Cluster.afterAll (c, d) calls →
      (.create name ∈ calls → (s.1.createPool s.2 name).1 = .error (.poolExists name)
        ∧ s.1.openPool s.2 name = .ok ())
      ∧ (.create name ∉ calls → (s.1.createPool s.2 name).1 = .ok ()
        ∧ s.1.openPool s.2 name = .error (.poolNotFound name)))
    ∧ (∀ {pool : String}, c.openPool d pool = .ok () →
      (∀ (calls : List ClusterCall) {s : Cluster × Disk}, s = Cluster.afterAll (c, d) calls →
        s.1.openPool s.2 pool = .ok ())
      ∧ ∀ (name : String) {s : Cluster × Disk}, s = (c.createPool d name).2 →
        (∀ now operation, (s.1.perform s.2 now pool operation).1 =
          (c.perform d now pool operation).1) ∧ s.1.keys s.2 pool = c.keys d pool)
    ∧ (∀ {g₁ : Gateway} {v : Visit} {x : Exchange}, v.request.WantsPool g.table ref →
      g.visit v = (some x, g₁) → x.status = 201 →
      ∀ happenings, (g₁.after happenings).engine.store.Opens ref
        ∧ ∀ {v' : Visit} {x' : Exchange} {g₂ : Gateway}, v'.request.WantsPool g.table ref →
          (g₁.after happenings).visit v' = (some x', g₂) → x'.status ≠ 201)
    ∧ ∀ {g₁ : Gateway} {happenings : List Engine.Happening} {v : Visit} {x : Exchange},
      g.HasRoom ref → v.request.WantsPool g.table ref →
      (g.after happenings).visit v = (some x, g₁) → x.status = 409 →
      (g.after happenings).engine.store.Opens ref := by
  refine ⟨?_, ?_, ?_, ?_⟩
  · rintro calls name hfresh htakes s rfl
    have hhosts := hfresh.hosts.run calls
    have htakes' := (Cluster.takes_afterAll (c, d) calls name).mpr htakes
    constructor
    · intro hcreated
      exact hhosts.of_made htakes' (.inr hcreated)
    · intro hcreated
      exact hhosts.of_not_made htakes' fun h => hcreated (h.resolve_left id)
  · intro pool hopens
    constructor
    · rintro calls s rfl
      exact Cluster.openPool_afterAll hopens calls
    · rintro name s rfl
      exact Cluster.createPool_objects hopens name
  · intro g₁ v x hwants hvisit hstatus happenings
    obtain ⟨hmade, hstore⟩ := Gateway.visit_made hwants hvisit hstatus
    have hopens : g₁.engine.store.Opens ref := hstore ▸ Clusters.opens_of_createPool hmade
    have hstays := Gateway.opens_after hopens happenings
    refine ⟨hstays, fun {v' x' g₂} hwants' hvisit' hstatus' => ?_⟩
    have hwants₁ : v'.request.WantsPool (g₁.after happenings).table ref :=
      (Gateway.visit_table hvisit).symm ▸ hwants'
    exact Clusters.createPool_of_opens hstays (Gateway.visit_made hwants₁ hvisit' hstatus').1
  · intro g₁ happenings v x hroom hwants hvisit hstatus
    have hwants' : v.request.WantsPool (g.after happenings).table ref := hwants
    obtain ⟨hrefused, hname⟩ := Gateway.visit_refused hwants' hvisit hstatus
    exact (hroom.after hname happenings).resolve_left hrefused

/-- A cluster in a folder. -/
def shedCluster : DirectoryCluster := ⟨["shed"], "07"⟩

/-- The disk after the cluster was connected: the file with the identity is all there is. -/
def shedDisk : Disk :=
  ⟨[(["shed"], .folder), (["shed", ".cluster-id"], .file (Bytes.ofText "07") 3)]⟩

theorem shed_fresh : (Cluster.directory shedCluster).Fresh shedDisk := by
  have hvacant : Disk.Vacant {} ["shed"] := by
    refine .missing (by decide) fun path hway => ?_
    have hne : path ≠ [] := by
      rintro rfl
      simp at hway
    unfold Disk.entry?
    rw [if_neg hne]
    rfl
  have hconnect : DirectoryCluster.connect {} ["shed"] 3 "07" = (.ok shedCluster, shedDisk) := by
    decide +kernel
  exact .directory hvacant hconnect

/-- A pool is made and has an object. -/
def furnished : List ClusterCall := [.create "a", .operate "a" 5 (.write "k" [1, 2] 0)]

/-- The cluster and its disk after that. -/
def furnishedShed : Cluster × Disk :=
  Cluster.afterAll (.directory shedCluster, shedDisk) furnished

/-- A gateway with one slot and a mount on the pool, which takes requests for new pools. -/
def shedGateway : Gateway where
  table := ⟨[⟨"/m", ⟨0, "a"⟩, 1, ⟨true, true, true, true⟩, .ofSeconds 4⟩], none⟩
  engine := ⟨.blocking, ⟨1, [0], 1, [], [], 0⟩, Switchboard.fresh 1,
    { members := [furnishedShed.1], disk := furnishedShed.2 }⟩

/-- A request for a new pool. -/
def newPool : Visit := ⟨{ method := "MKCOL", path := "/m/b" }, none⟩

theorem newPool_wants : newPool.request.WantsPool shedGateway.table ⟨0, "b"⟩ := by
  refine ⟨⟨"/m", ⟨0, "a"⟩, 1, ⟨true, true, true, true⟩, .ofSeconds 4⟩, "b", ?_, rfl, rfl⟩
  unfold Http.Serve.locate newPool
  rfl

theorem shedGateway_hasRoom : shedGateway.HasRoom ⟨0, "b"⟩ := by
  refine .directory (.inl (by rfl)) ?_ rfl
  rintro cluster hcluster
  cases hcluster
  refine ⟨["shed"], ⟨by rfl, by rfl⟩, ?_⟩
  rintro ref other ⟨mount, hmount, rfl⟩ hother
  rcases hmount with hmount | hmount
  · cases List.mem_singleton.mp hmount
    cases hother
    exact ⟨["shed", "a"], ⟨by rfl, by rfl⟩, by decide⟩
  · cases hmount

/-- A second pool is made beside the one with the object, and not made again. -/
theorem pools_made_once_shed :
    (furnishedShed.1.createPool furnishedShed.2 "a").1 = .error (.poolExists "a")
      ∧ furnishedShed.1.openPool furnishedShed.2 "b" = .error (.poolNotFound "b")
      ∧ (furnishedShed.1.createPool furnishedShed.2 "b").2.1.keys
          (furnishedShed.1.createPool furnishedShed.2 "b").2.2 "a" =
        furnishedShed.1.keys furnishedShed.2 "a"
      ∧ (∃ x g₁, shedGateway.visit newPool = (some x, g₁) ∧ x.status = 201
        ∧ g₁.engine.store.Opens ⟨0, "b"⟩)
      ∧ ∃ x g₁, (shedGateway.after [.visit newPool]).visit newPool = (some x, g₁)
        ∧ x.status = 409 ∧ (shedGateway.after [.visit newPool]).engine.store.Opens ⟨0, "b"⟩ := by
  obtain ⟨hcalls, -, honce, honly⟩ :=
    @pools_made_once (.directory shedCluster) shedDisk shedGateway ⟨0, "b"⟩
  obtain ⟨-, hstays, -⟩ :=
    @pools_made_once furnishedShed.1 furnishedShed.2 shedGateway ⟨0, "b"⟩
  have htakes : ∀ name ∈ ["a", "b"], (Cluster.directory shedCluster).Takes name := by
    intro name hname
    simp only [List.mem_cons, List.not_mem_nil, or_false] at hname
    rcases hname with rfl | rfl
    · exact ⟨by rfl, by decide, by decide, by decide⟩
    · exact ⟨by rfl, by decide, by decide, by decide⟩
  have hmade := (hcalls furnished shed_fresh (htakes "a" (by decide)) rfl).1 (by decide)
  have hmissing := (hcalls furnished shed_fresh (htakes "b" (by decide)) rfl).2 (by decide)
  have hfirst : (shedGateway.visit newPool).1.map Exchange.status = some 201 := by decide +kernel
  obtain ⟨x, hx, hcreated⟩ := Option.map_eq_some_iff.mp hfirst
  have hvisit : shedGateway.visit newPool = (some x, (shedGateway.visit newPool).2) :=
    Prod.ext hx rfl
  have hsecond : ((shedGateway.after [.visit newPool]).visit newPool).1.map Exchange.status =
      some 409 := by decide +kernel
  obtain ⟨y, hy, hrefused⟩ := Option.map_eq_some_iff.mp hsecond
  have hagain : (shedGateway.after [.visit newPool]).visit newPool =
      (some y, ((shedGateway.after [.visit newPool]).visit newPool).2) := Prod.ext hy rfl
  refine ⟨hmade.1, hmissing.2, ((hstays hmade.2).2 "b" rfl).2, ?_, ?_⟩
  · exact ⟨x, _, hvisit, hcreated, (honce newPool_wants hvisit hcreated []).1⟩
  · exact ⟨y, _, hagain, hrefused, honly shedGateway_hasRoom newPool_wants hagain hrefused⟩

/-- The file with the identity takes up the place of a pool: it cannot be made a first time, and yet
it is not found. -/
theorem identity_is_no_pool :
    (Cluster.directory shedCluster).Fresh shedDisk ∧ Names.checkPool ".cluster-id" = .ok ()
      ∧ '\x00' ∉ ".cluster-id".toList ∧ ".cluster-id".utf8ByteSize ≤ Disk.longestName
      ∧ ((Cluster.directory shedCluster).createPool shedDisk ".cluster-id").1 =
        .error (.poolExists ".cluster-id")
      ∧ (Cluster.directory shedCluster).openPool shedDisk ".cluster-id" =
        .error (.poolNotFound ".cluster-id") := by
  exact ⟨shed_fresh, by rfl, by decide, by decide, by rfl, by rfl⟩

end DavGateway
