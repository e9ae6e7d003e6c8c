import DavGateway.Gateway.Start
import DavGateway.Proofs.Gateway.Contents

/-!
# A gateway that starts is open

Starting a gateway opens its mounts one after the other. With clusters in memory this only ever adds
clusters and pools (`Clusters.Grows`), and a mount that was opened has its pool, so that a gateway
that starts is open for requests.
-/

namespace DavGateway

variable {s : GatewaySettings} {mounts : List Mount} {c c' c'' : Clusters} {g : Gateway}
variable {ref : PoolRef} {here : DiskPath}

namespace Clusters

/-- All clusters are in memory. -/
def InMemory (c : Clusters) : Prop :=
  ∀ member ∈ c.members, ∃ identity cluster, member = .memory identity cluster

/-- Clusters in memory and pools may have been added, and nothing else has happened. -/
structure Grows (c c' : Clusters) : Prop where
  pools : ∀ {ref p}, c.poolAt? ref = some p → c'.poolAt? ref = some p
  memory : c.InMemory → c'.InMemory
  dispatcher : c'.dispatcher = c.dispatcher

theorem Grows.refl (c : Clusters) : c.Grows c := ⟨id, id, rfl⟩

theorem Grows.trans (h : c.Grows c') (h' : c'.Grows c'') : c.Grows c'' where
  pools := fun hp => h'.pools (h.pools hp)
  memory := fun hc => h'.memory (h.memory hc)
  dispatcher := h'.dispatcher.trans h.dispatcher

theorem grows_add (c : Clusters) (identity : String) (cluster : MemoryCluster) :
    c.Grows (c.add (.memory identity cluster)).2 where
  pools := by
    intro ref p hp
    rcases Option.bind_eq_some_iff.mp hp with ⟨member, hmember, hpool⟩
    have hlt := (List.getElem?_eq_some_iff.mp hmember).1
    refine Option.bind_eq_some_iff.mpr ⟨member, ?_, hpool⟩
    exact (List.getElem?_append_left hlt).trans hmember
  memory := by
    intro hmemory member hmember
    rcases List.mem_append.mp hmember with hmember | hmember
    · exact hmemory member hmember
    · exact ⟨identity, cluster, List.mem_singleton.mp hmember⟩
  dispatcher := rfl

theorem grows_createPool (c : Clusters) (ref : PoolRef) : c.Grows (c.createPool ref).2 where
  pools := c.poolAt?_createPool_of_some ref
  memory := by
    intro hmemory
    unfold createPool
    split
    · next member hmember =>
      rcases hmemory member (List.mem_of_getElem? hmember) with ⟨identity, cluster, rfl⟩
      intro other hother
      rcases List.mem_or_eq_of_mem_set hother with hother | rfl
      · exact hmemory other hother
      · exact ⟨_, _, rfl⟩
    · exact hmemory
  dispatcher := (c.createPool_keeps ref).2

theorem openPool_snd (c : Clusters) (ref : PoolRef) : (c.openPool ref).2 = c := by
  unfold openPool
  split <;> rfl

/-- A pool in memory that can be opened is there. -/
theorem InMemory.openPool (hmemory : c.InMemory) (h : c.openPool ref = (.ok (), c')) :
    c' = c ∧ ∃ p, c'.poolAt? ref = some p := by
  unfold Clusters.openPool at h
  split at h
  · next member hmember =>
    rcases hmemory member (List.mem_of_getElem? hmember) with ⟨identity, cluster, rfl⟩
    rcases Prod.mk.inj h with ⟨hopened, rfl⟩
    refine ⟨rfl, ?_⟩
    have hcontains : cluster.pools.contains ref.pool = true := by
      have hopened : cluster.openPool ref.pool = .ok () := hopened
      unfold MemoryCluster.openPool at hopened
      split at hopened
      · assumption
      · cases hopened
    rcases Shelf.contains_eq_true.mp hcontains with ⟨p, hp⟩
    exact ⟨p, Option.bind_eq_some_iff.mpr ⟨_, hmember, hp⟩⟩
  · cases (Prod.mk.inj h).1

end Clusters

namespace Mount

/-! ## Opening a mount -/

/-- A handle that was opened has its pool. -/
theorem openHandle_opens {createMissing : Bool} (hmemory : c.InMemory)
    (h : openHandle Clusters.client ref createMissing c = (.ok (), c')) :
    c.Grows c' ∧ ∃ p, c'.poolAt? ref = some p := by
  unfold openHandle at h
  split at h
  · next name c₁ hfirst =>
    -- the pool is made if it is missing, and then opened
    have hsame := c.openPool_snd ref
    rw [show c.openPool ref = _ from hfirst] at hsame
    subst hsame
    split at h
    · split at h
      · next c₂ hcreate =>
        have hgrows := c₁.grows_createPool ref
        rw [show c₁.createPool ref = _ from hcreate] at hgrows
        rcases (hgrows.memory hmemory).openPool h with ⟨rfl, hpool⟩
        exact ⟨hgrows, hpool⟩
      · cases (Prod.mk.inj h).1
    · cases (Prod.mk.inj h).1
  · rcases hmemory.openPool h with ⟨rfl, hpool⟩
    exact ⟨.refl _, hpool⟩

theorem openHandles_opens {createMissing : Bool} {count : Nat} (hmemory : c.InMemory)
    (h : openHandles Clusters.client ref createMissing count c = (.ok (), c')) :
    c.Grows c' ∧ (count ≠ 0 → ∃ p, c'.poolAt? ref = some p) := by
  -- the first handle needs the pool, and the others do not take it away
  induction count generalizing c with
  | zero =>
    cases h
    exact ⟨.refl _, fun hzero => absurd rfl hzero⟩
  | succ count ih =>
    unfold openHandles at h
    split at h
    · next c₁ hfirst =>
      rcases openHandle_opens hmemory hfirst with ⟨hgrows, p, hpool⟩
      rcases ih (hgrows.memory hmemory) h with ⟨hrest, -⟩
      exact ⟨hgrows.trans hrest, fun _ => ⟨p, hrest.pools hpool⟩⟩
    · cases (Prod.mk.inj h).1

/-- A mount that was opened has its pool. -/
theorem connect_opens {settings : MountSettings} {cluster handles usualTimeout : Nat}
    {createMissing : Bool} {m : Mount} (hmemory : c.InMemory)
    (h : connect Clusters.client settings cluster handles usualTimeout createMissing c =
      (.ok m, c')) :
    c.Grows c' ∧ (∃ p, c'.poolAt? m.ref = some p) ∧ m.limit = settings.limit usualTimeout := by
  unfold connect at h
  simp only at h
  split at h
  · cases (Prod.mk.inj h).1
  · next c₁ hopened =>
    cases h
    rcases openHandles_opens hmemory hopened with ⟨hgrows, hpool⟩
    have hone : max handles 1 ≠ 0 := Nat.ne_of_gt (Nat.le_max_right handles 1)
    exact ⟨hgrows, hpool hone, rfl⟩

end Mount

namespace MountTable

/-- A table has no mounts but the given ones. -/
theorem mem_ofMounts {fallback : Option String} {t : MountTable}
    (h : ofMounts mounts fallback = .ok t) {m : Mount}
    (hm : m ∈ t.mounts ∨ t.fallback = some m) : m ∈ mounts := by
  have hsorted : ∀ m, m ∈ mounts.mergeSort atLeastAsLong → m ∈ mounts :=
    fun m hm => List.mem_mergeSort.mp hm
  unfold ofMounts at h
  simp only at h
  -- the table is refused if two mounts have the same base, or the default mount is not known
  split at h
  · cases h
  · split at h
    · cases h
      rcases hm with hm | hm
      · exact hsorted m hm
      · cases hm
    · split at h
      · next mount hfind =>
        cases h
        rcases hm with hm | hm
        · exact hsorted m hm
        · cases hm
          exact hsorted m (List.mem_of_find?_eq_some hfind)
      · cases h

end MountTable

namespace Engine

/-- An engine that has just been created is ready. -/
theorem create_ready {mode : SchedulingMode} {concurrency : Nat} {e : Engine Clusters}
    (h : create mode concurrency c = .ok e) (hidle : c.dispatcher.jobs = []) :
    e.Ready ∧ e.store = c := by
  unfold create SlotPool.create at h
  by_cases hzero : concurrency = 0
  · rw [if_pos hzero] at h
    cases h
  · rw [if_neg hzero] at h
    cases h
    rcases Nat.exists_eq_succ_of_ne_zero hzero with ⟨n, rfl⟩
    refine ⟨⟨⟨0, (List.range n).map Nat.succ, List.range_succ_eq_map, ?_⟩, hzero, rfl, hidle,
      { board := Switchboard.fresh (n + 1) }, rfl, Wires.fresh_sound (n + 1)⟩, rfl⟩
    show 0 < (Switchboard.fresh (n + 1)).bridges.length
    rw [Switchboard.length_fresh]
    exact Nat.succ_pos n

end Engine

namespace Gateway

/-- A gateway is put to work with the table of its mounts and a new engine. -/
theorem ofMounts_parts (h : ofMounts s mounts c = .ok g) :
    MountTable.ofMounts mounts s.defaultMount = .ok g.table
      ∧ Engine.create s.scheduling.mode s.scheduling.concurrency c = .ok g.engine := by
  unfold ofMounts at h
  simp only [bind, Except.bind] at h
  split at h
  · cases h
  · next table htable =>
    split at h
    · cases h
    · split at h
      · cases h
      · next engine hengine =>
        cases h
        exact ⟨htable, hengine⟩

/-- One mount is enough. -/
theorem ofMounts_singleton {m : Mount} {e : Engine Clusters} (hdefault : s.defaultMount = none)
    (hengine : Engine.create s.scheduling.mode s.scheduling.concurrency c = .ok e) :
    ofMounts s [m] c = .ok ⟨⟨[m], none⟩, e⟩ := by
  have htable : MountTable.ofMounts [m] none = .ok ⟨[m], none⟩ := by
    simp [MountTable.ofMounts, MountTable.twin?]
  unfold ofMounts
  rw [hdefault, htable, hengine]
  rfl

/-- A gateway over open mounts is open. -/
theorem ofMounts_open (h : ofMounts s mounts c = .ok g)
    (hpools : ∀ m ∈ mounts, ∃ p, c.poolAt? m.ref = some p) (hidle : c.dispatcher.jobs = [])
    (hprompt : ∀ m ∈ mounts, ∀ number, (c.dispatcher.delay number).nanos ≤ m.limit.nanos) :
    g.Open := by
  rcases ofMounts_parts h with ⟨htable, hengine⟩
  rcases Engine.create_ready hengine hidle with ⟨hready, hstore⟩
  refine ⟨hready, fun m hm => ?_, fun m hm => ?_⟩
  · rw [hstore]
    exact hpools m (MountTable.mem_ofMounts htable hm)
  · rw [hstore]
    exact hprompt m (MountTable.mem_ofMounts htable hm)

/-! ## Starting -/

/-- With clusters in memory, a connection leads to a cluster in memory. -/
theorem clusterFor_grows {connection : Option String} {connected connected' : Connected}
    {number : Nat} (hbackend : s.store.backend = .memory)
    (h : clusterFor s here connection connected c = (.ok (number, connected'), c')) :
    c.Grows c' := by
  unfold clusterFor at h
  split at h
  · cases h
    exact .refl c
  · split at h
    · cases (Prod.mk.inj h).1
    · next number' c₁ hconnect =>
      cases h
      unfold connect at hconnect
      rw [hbackend] at hconnect
      cases hconnect
      exact c.grows_add _ _

/-- Mounts that were opened one after the other all have their pools. -/
theorem openMounts_opens {settings : List MountSettings} {connected : Connected}
    (hbackend : s.store.backend = .memory) (hmemory : c.InMemory)
    (h : openMounts s here settings connected c = (.ok mounts, c')) :
    c.Grows c' ∧ ∀ m ∈ mounts, (∃ p, c'.poolAt? m.ref = some p)
      ∧ ∃ mount ∈ settings, m.limit = mount.limit s.timeout := by
  -- induction on the mounts that are still to be opened
  induction settings generalizing c connected mounts with
  | nil =>
    cases h
    exact ⟨.refl _, nofun⟩
  | cons mount rest ih =>
    unfold openMounts at h
    split at h
    · cases (Prod.mk.inj h).1
    · next number connected₁ c₁ hcluster =>
      have hgrows₁ := clusterFor_grows hbackend hcluster
      split at h
      · cases (Prod.mk.inj h).1
      · next m c₂ hconnect =>
        rcases Mount.connect_opens (hgrows₁.memory hmemory) hconnect
            with ⟨hgrows₂, ⟨p, hpool⟩, hlimit⟩
        have hgrows := hgrows₁.trans hgrows₂
        split at h
        · cases (Prod.mk.inj h).1
        · next others c₃ hrest =>
          cases h
          rcases ih (hgrows.memory hmemory) hrest with ⟨hgrows₃, hothers⟩
          refine ⟨hgrows.trans hgrows₃, fun m' hm' => ?_⟩
          -- the pool of the first mount stays while the others are opened
          rcases List.mem_cons.mp hm' with rfl | hm'
          · exact ⟨⟨p, hgrows₃.pools hpool⟩, mount, List.mem_cons_self, hlimit⟩
          · rcases hothers m' hm' with ⟨hpool', mount', hmem, hlimit'⟩
            exact ⟨hpool', mount', List.mem_cons_of_mem _ hmem, hlimit'⟩

/-- A gateway that starts over memory clusters is open, if operations are carried out before the
time of the shortest mount is up. -/
theorem start_open (hbackend : s.store.backend = .memory) (hmemory : c.InMemory)
    (hidle : c.dispatcher.jobs = [])
    (hprompt : ∀ m ∈ s.mounts, ∀ number,
      (c.dispatcher.delay number).nanos ≤ (m.limit s.timeout).nanos)
    (h : start s here c = (.ok g, c')) : g.Open := by
  unfold start at h
  split at h
  · cases (Prod.mk.inj h).1
  · split at h
    · cases (Prod.mk.inj h).1
    · next mounts c₁ hmounts =>
      rcases Prod.mk.inj h with ⟨hstart, -⟩
      rcases openMounts_opens hbackend hmemory hmounts with ⟨hgrows, hopened⟩
      refine ofMounts_open hstart (fun m hm => (hopened m hm).1) ?_ fun m hm number => ?_
      · rw [hgrows.dispatcher]
        exact hidle
      · rcases hopened m hm with ⟨-, mount, hmem, hlimit⟩
        rw [hgrows.dispatcher, hlimit]
        exact hprompt mount hmem number

end Gateway


end DavGateway
