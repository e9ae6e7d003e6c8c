import DavGateway.Proofs.Gateway.Start
import DavGateway.Proofs.Http.References

/-!
# Settings that pass the check route

The check of the settings and the table of the mounts look at the same facts in different ways: the
check keeps the bases that it has seen, and the table compares neighbours after sorting. What passes
the one is accepted by the other, in any order and spelling of the mountpoints, and every mount is
found at its own root. So a gateway with such settings fails to start only while it connects a
cluster or opens or makes a pool (`checked_settings_route`).
-/

namespace DavGateway

variable {s : GatewaySettings} {settings : MountSettings} {failure : Failure}

namespace GatewaySettings

/-! ## What the check accepts -/

/-- A gateway can be started with the settings: there are mounts and slots, no time limit is zero,
the mountpoints begin with a slash and have different bases, a directory cluster has a directory,
and the default mount is one of the mounts. -/
structure Sound (s : GatewaySettings) : Prop where
  mounts : s.mounts ≠ []
  concurrency : s.scheduling.concurrency ≠ 0
  timeout : s.timeout ≠ 0
  slashes : ∀ settings ∈ s.mounts, settings.mountpoint.toList.head? = some '/'
  timeouts : ∀ settings ∈ s.mounts, settings.timeout ≠ some 0
  roots : s.store.backend = .directory →
    ∀ settings ∈ s.mounts, (settings.connection.or s.store.root).isSome = true
  bases : s.bases.Nodup
  fallback : ∀ mountpoint, s.defaultMount = some mountpoint →
    MountSettings.normalize mountpoint ∈ s.bases

theorem checkMount_eq_ok : s.checkMount settings = .ok () ↔
    settings.mountpoint.toList.head? = some '/' ∧ settings.timeout ≠ some 0
      ∧ (s.store.backend = .directory → (settings.connection.or s.store.root).isSome = true) := by
  have hroot : (settings.connection.or s.store.root).isSome = true ↔
      ¬ (settings.connection = none ∧ s.store.root = none) := by
    cases settings.connection <;> cases s.store.root <;> simp
  rw [hroot]
  unfold checkMount
  split
  · next hslash => simp [hslash]
  · split
    · next hzero => simp [hzero]
    · split
      · next hnowhere => simp [hnowhere]
      · next hslash hzero hnowhere => simp_all

/-- Mounts pass the check if each of them does, and their bases are new and differ. -/
theorem checkMounts_eq_ok {mounts : List MountSettings} {seen : List String} :
    s.checkMounts seen mounts = .ok () ↔
      (∀ settings ∈ mounts, s.checkMount settings = .ok ()
        ∧ MountSettings.normalize settings.mountpoint ∉ seen)
      ∧ (mounts.map fun settings => MountSettings.normalize settings.mountpoint).Nodup := by
  -- induction on the mounts, with the bases of the earlier ones
  induction mounts generalizing seen with
  | nil => simp [checkMounts]
  | cons first rest ih =>
    unfold checkMounts
    simp only [bind, Except.bind]
    cases hfirst : s.checkMount first with
    | error failure => simp [hfirst]
    | ok =>
      by_cases hseen : MountSettings.normalize first.mountpoint ∈ seen
      · simp [hseen]
      · simp only [hseen, if_false]
        rw [ih, List.map_cons, List.nodup_cons]
        constructor
        · rintro ⟨hmounts, hnodup⟩
          refine ⟨fun settings hmem => ?_, fun hmem => ?_, hnodup⟩
          · rcases List.mem_cons.mp hmem with rfl | hmem
            · exact ⟨hfirst, hseen⟩
            · obtain ⟨hchecked, hnew⟩ := hmounts settings hmem
              exact ⟨hchecked, fun hold => hnew (List.mem_cons_of_mem _ hold)⟩
          · obtain ⟨settings, hsettings, hbase⟩ := List.mem_map.mp hmem
            apply (hmounts settings hsettings).2
            rw [hbase]
            exact List.mem_cons_self
        · rintro ⟨hmounts, hfresh, hnodup⟩
          refine ⟨fun settings hmem => ?_, hnodup⟩
          obtain ⟨hchecked, hnew⟩ := hmounts settings (List.mem_cons_of_mem _ hmem)
          refine ⟨hchecked, fun hold => ?_⟩
          rcases List.mem_cons.mp hold with hsame | hold
          · exact hfresh (List.mem_map.mpr ⟨settings, hmem, hsame⟩)
          · exact hnew hold

/-- The check accepts sound settings and no others. -/
theorem check_eq_ok : s.check = .ok () ↔ s.Sound := by
  have hparts : s.check = .ok () ↔ s.mounts ≠ [] ∧ s.scheduling.concurrency ≠ 0
      ∧ s.timeout ≠ 0 ∧ s.checkMounts [] s.mounts = .ok ()
      ∧ ∀ mountpoint, s.defaultMount = some mountpoint →
        MountSettings.normalize mountpoint ∈ s.bases := by
    unfold check
    simp only [bind, Except.bind]
    by_cases hmounts : s.mounts = []
    · simp [hmounts]
    · by_cases hconcurrency : s.scheduling.concurrency = 0
      · simp [hmounts, hconcurrency]
      · by_cases htimeout : s.timeout = 0
        · simp [hmounts, hconcurrency, htimeout]
        · cases hchecked : s.checkMounts [] s.mounts with
          | error failure => simp [hmounts, hconcurrency, htimeout]
          | ok =>
            cases hdefault : s.defaultMount with
            | none => simp [hmounts, hconcurrency, htimeout]
            | some mountpoint =>
              by_cases hknown : MountSettings.normalize mountpoint ∈ s.bases
              · simp [hmounts, hconcurrency, htimeout, hknown]
              · simp [hmounts, hconcurrency, htimeout, hknown]
  rw [hparts, checkMounts_eq_ok]
  constructor
  · rintro ⟨hmounts, hconcurrency, htimeout, ⟨hchecked, hbases⟩, hfallback⟩
    have heach : ∀ settings ∈ s.mounts, _ :=
      fun settings hmem => checkMount_eq_ok.mp (hchecked settings hmem).1
    exact ⟨hmounts, hconcurrency, htimeout, fun settings hmem => (heach settings hmem).1,
      fun settings hmem => (heach settings hmem).2.1,
      fun hbackend settings hmem => (heach settings hmem).2.2 hbackend, hbases, hfallback⟩
  · intro h
    refine ⟨h.mounts, h.concurrency, h.timeout, ⟨fun settings hmem => ⟨?_, nofun⟩, h.bases⟩,
      h.fallback⟩
    exact checkMount_eq_ok.mpr ⟨h.slashes settings hmem, h.timeouts settings hmem,
      fun hbackend => h.roots hbackend settings hmem⟩

end GatewaySettings

namespace MountTable

/-! ## Tables -/

variable {mounts : List Mount} {fallback : Option String}

theorem twin?_eq_none (h : mounts.Pairwise fun a b => a.base ≠ b.base) : twin? mounts = none := by
  induction mounts with
  | nil => rfl
  | cons first rest ih =>
    obtain ⟨hfirst, hrest⟩ := List.pairwise_cons.mp h
    cases rest with
    | nil => rfl
    | cons second rest =>
      unfold twin?
      rw [if_neg (hfirst second List.mem_cons_self)]
      exact ih hrest

/-- Mounts with different bases make a table, if the default mount is one of them. -/
theorem exists_ofMounts (hdistinct : mounts.Pairwise fun a b => a.base ≠ b.base)
    (hfallback : ∀ mountpoint, fallback = some mountpoint →
      ∃ m ∈ mounts, m.base = MountSettings.normalize mountpoint) :
    ∃ table, ofMounts mounts fallback = .ok table := by
  have hperm := List.mergeSort_perm mounts atLeastAsLong
  have htwins : twin? (mounts.mergeSort atLeastAsLong) = none :=
    twin?_eq_none (hperm.symm.pairwise hdistinct fun hne => hne.symm)
  unfold ofMounts
  simp only [htwins]
  cases fallback with
  | none => exact ⟨_, rfl⟩
  | some mountpoint =>
    obtain ⟨m, hm, hbase⟩ := hfallback mountpoint rfl
    have hfound : ((mounts.mergeSort atLeastAsLong).find? fun m =>
        m.base == MountSettings.normalize mountpoint).isSome = true := by
      rw [List.find?_isSome]
      exact ⟨m, hperm.mem_iff.mpr hm, beq_iff_eq.mpr hbase⟩
    obtain ⟨mount, hmount⟩ := Option.isSome_iff_exists.mp hfound
    simp only [hmount]
    exact ⟨_, rfl⟩

end MountTable

/-! ## Opening mounts -/

theorem MountSettings.limit_pos {usual : Nat} (husual : usual ≠ 0)
    (htimeout : settings.timeout ≠ some 0) : 0 < (settings.limit usual).nanos := by
  have hseconds : settings.timeout.getD usual ≠ 0 := by
    cases htime : settings.timeout with
    | none => exact husual
    | some seconds =>
      rintro rfl
      exact htimeout htime
  show 0 < settings.timeout.getD usual * 1000000000
  omega

/-- From the state `t` of the stores the pool is not to be had: it cannot be opened, or it is
missing and cannot be made, or it cannot be opened though it has just been made. -/
inductive StoreClient.Denies {σ : Type} (client : StoreClient σ) (ref : PoolRef)
    (createMissing : Bool) (t : σ) (failure : Failure) (t' : σ) : Prop
  | opening (hfinal : createMissing = true → ∀ name, failure ≠ .poolNotFound name)
    (hopen : client.openPool ref t = (.error failure, t'))
  | making {name : String} {t₁ : σ} (hmissing : createMissing = true)
    (hopen : client.openPool ref t = (.error (.poolNotFound name), t₁))
    (hmake : client.createPool ref t₁ = (.error failure, t'))
  | reopening {name : String} {t₁ t₂ : σ} (hmissing : createMissing = true)
    (hopen : client.openPool ref t = (.error (.poolNotFound name), t₁))
    (hmake : client.createPool ref t₁ = (.ok (), t₂))
    (hagain : client.openPool ref t₂ = (.error failure, t'))

namespace Mount

variable {σ : Type} {client : StoreClient σ} {ref : PoolRef} {createMissing : Bool} {t t' : σ}

/-- The mount was opened as its settings say. -/
structure IsOf (s : GatewaySettings) (settings : MountSettings) (m : Mount) : Prop where
  base : m.base = MountSettings.normalize settings.mountpoint
  pool : m.ref.pool = settings.pool
  handles : m.handles = max s.handles 1
  permissions : m.permissions = settings.permissions
  limit : m.limit = settings.limit s.timeout

theorem openHandle_fails (h : openHandle client ref createMissing t = (.error failure, t')) :
    client.Denies ref createMissing t failure t' := by
  unfold openHandle at h
  split at h
  · next name t₁ hopen =>
    split at h
    · next hmissing =>
      split at h
      · next t₂ hmake => exact .reopening hmissing hopen hmake h
      · next reason t₂ hmake =>
        cases h
        exact .making hmissing hopen hmake
    · next hmissing =>
      cases h
      exact .opening (fun hwanted => absurd hwanted hmissing) hopen
  · next hother =>
    refine .opening (fun _ name heq => ?_) h
    subst heq
    exact hother name t' h

/-- Handles are opened one after the other, until one is denied. -/
theorem openHandles_fails {count : Nat}
    (h : openHandles client ref createMissing count t = (.error failure, t')) :
    ∃ opened < count, ∃ t₁, openHandles client ref createMissing opened t = (.ok (), t₁)
      ∧ client.Denies ref createMissing t₁ failure t' := by
  induction count generalizing t with
  | zero => cases h
  | succ count ih =>
    unfold openHandles at h
    split at h
    · next t₁ hfirst =>
      obtain ⟨opened, hlt, t₂, hopened, hdenied⟩ := ih h
      refine ⟨opened + 1, Nat.succ_lt_succ hlt, t₂, ?_, hdenied⟩
      unfold openHandles
      rw [hfirst]
      exact hopened
    · next reason t₁ hfirst =>
      cases h
      exact ⟨0, Nat.succ_pos count, t, rfl, openHandle_fails hfirst⟩

/-- A mount fails to be opened only if one of its handles is denied its pool. -/
theorem connect_fails {cluster handles usual : Nat}
    (h : connect client settings cluster handles usual createMissing t = (.error failure, t')) :
    ∃ opened < max handles 1, ∃ t₁,
      openHandles client ⟨cluster, settings.pool⟩ createMissing opened t = (.ok (), t₁)
        ∧ client.Denies ⟨cluster, settings.pool⟩ createMissing t₁ failure t' := by
  unfold connect at h
  simp only at h
  split at h
  · next reason t₁ hopen =>
    cases h
    exact openHandles_fails hopen
  · cases h

theorem connect_isOf {cluster : Nat} {m : Mount} (h : connect client settings cluster s.handles
      s.timeout createMissing t = (.ok m, t')) : m.IsOf s settings ∧ m.ref.cluster = cluster := by
  unfold connect at h
  simp only at h
  split at h
  · cases h
  · cases h
    exact ⟨⟨rfl, rfl, rfl, rfl, rfl⟩, rfl⟩

end Mount

namespace Gateway

variable {here : DiskPath} {connection : Option String} {connected : Connected} {c c' : Clusters}
variable {mounts : List Mount}

/-- Mounts are opened one after the other, with the clusters that are connected before and after. -/
inductive Opens (s : GatewaySettings) (here : DiskPath) :
    List MountSettings → Connected → Clusters → Connected → Clusters → Prop
  | nil {connected : Connected} {c : Clusters} : Opens s here [] connected c connected c
  | cons {settings : MountSettings} {rest : List MountSettings} {number : Nat} {m : Mount}
    {connected connected₁ connected' : Connected} {c c₁ c₂ c' : Clusters}
    (hcluster : clusterFor s here settings.connection connected c = (.ok (number, connected₁), c₁))
    (hmount : Mount.connect Clusters.client settings number s.handles s.timeout
      s.store.createMissing c₁ = (.ok m, c₂))
    (hrest : Opens s here rest connected₁ c₂ connected' c') :
    Opens s here (settings :: rest) connected c connected' c'

/-- A mount that is to be opened next, from the state `c` of the stores, is denied its cluster or
its pool: its connection is new and a directory cluster cannot be connected in its directory, or one
of its handles is denied the pool on its cluster. -/
inductive Denies (s : GatewaySettings) (here : DiskPath) (connected : Connected) (c : Clusters)
    (settings : MountSettings) (failure : Failure) (c' : Clusters) : Prop
  | cluster {root : String} {disk : Disk} (hbackend : s.store.backend = .directory)
    (hnew : connected.lookup settings.connection = none)
    (hroot : settings.connection.or s.store.root = some root)
    (hconnect : DirectoryCluster.connect c.disk (DiskPath.ofText here root) c.now c.freshIdentity =
      (.error failure, disk))
    (hafter : c' = { c with disk := disk })
  | pool {number opened : Nat} {connected₁ : Connected} {c₁ c₂ : Clusters}
    (hcluster : clusterFor s here settings.connection connected c = (.ok (number, connected₁), c₁))
    (hlt : opened < max s.handles 1)
    (hopened : Mount.openHandles Clusters.client ⟨number, settings.pool⟩ s.store.createMissing
      opened c₁ = (.ok (), c₂))
    (hdenied : Clusters.client.Denies ⟨number, settings.pool⟩ s.store.createMissing c₂ failure c')

theorem clusterFor_fails (hsound : s.Sound) (hmem : settings ∈ s.mounts)
    (h : clusterFor s here settings.connection connected c = (.error failure, c')) :
    Denies s here connected c settings failure c' := by
  unfold clusterFor at h
  split at h
  · cases h
  · next hnew =>
    split at h
    · next reason c₁ hconnect =>
      cases h
      unfold connect at hconnect
      cases hbackend : s.store.backend with
      | memory =>
        rw [hbackend] at hconnect
        cases hconnect
      | directory =>
        obtain ⟨root, hroot⟩ := Option.isSome_iff_exists.mp (hsound.roots hbackend settings hmem)
        rw [hbackend] at hconnect
        simp only [hroot] at hconnect
        split at hconnect
        · next reason disk hfails =>
          cases hconnect
          exact .cluster hbackend hnew hroot hfails rfl
        · cases hconnect
    · cases h

/-- Mounts are opened as their settings say, each of them, or the first ones are and the next one is
denied its cluster or its pool. -/
theorem openMounts_cases (hsound : s.Sound) {list : List MountSettings} (hlist : list ⊆ s.mounts)
    {result : Except Failure (List Mount)} (h : openMounts s here list connected c = (result, c')) :
    (∃ mounts, result = .ok mounts ∧ List.Forall₂ (Mount.IsOf s) list mounts)
    ∨ ∃ failure, result = .error failure ∧ ∃ earlier settings later connected₁ c₁,
      list = earlier ++ settings :: later ∧ Opens s here earlier connected c connected₁ c₁
        ∧ Denies s here connected₁ c₁ settings failure c' := by
  -- induction on the mounts that are still to be opened
  induction list generalizing connected c result with
  | nil =>
    cases h
    exact .inl ⟨[], rfl, .nil⟩
  | cons settings rest ih =>
    obtain ⟨hmem, hrest⟩ := List.cons_subset.mp hlist
    unfold openMounts at h
    split at h
    · next failure c₁ hcluster =>
      cases h
      exact .inr ⟨failure, rfl, [], settings, rest, connected, c, rfl, .nil,
        clusterFor_fails hsound hmem hcluster⟩
    · next number connected₁ c₁ hcluster =>
      split at h
      · next failure c₂ hconnect =>
        cases h
        obtain ⟨opened, hlt, c₂, hopened, hdenied⟩ := Mount.connect_fails hconnect
        exact .inr ⟨failure, rfl, [], settings, rest, connected, c, rfl, .nil,
          .pool hcluster hlt hopened hdenied⟩
      · next m c₂ hconnect =>
        have hm := (Mount.connect_isOf hconnect).1
        split at h
        · next failure c₃ hothers =>
          cases h
          rcases ih hrest hothers with ⟨mounts, hmounts, -⟩ |
            ⟨_, ⟨⟩, earlier, other, later, connected₂, c₄, hsplit, hopens, hdenied⟩
          · cases hmounts
          · exact .inr ⟨failure, rfl, settings :: earlier, other, later, connected₂, c₄,
              congrArg (settings :: ·) hsplit, .cons hcluster hconnect hopens, hdenied⟩
        · next others c₃ hothers =>
          cases h
          rcases ih hrest hothers with ⟨_, ⟨⟩, heach⟩ | ⟨failure, hfailure, -⟩
          · exact .inl ⟨m :: others, rfl, .cons hm heach⟩
          · cases hfailure

/-! ## Routing -/

theorem bases_of_isOf {list : List MountSettings} (h : List.Forall₂ (Mount.IsOf s) list mounts) :
    mounts.map Mount.base =
      list.map fun settings => MountSettings.normalize settings.mountpoint := by
  induction h with
  | nil => rfl
  | cons hm _ ih => rw [List.map_cons, List.map_cons, hm.base, ih]

/-- Mounts that were opened with sound settings make a table, in which each of them is found at its
own root. -/
theorem exists_table (hsound : s.Sound) (h : List.Forall₂ (Mount.IsOf s) s.mounts mounts) :
    ∃ table, MountTable.ofMounts mounts s.defaultMount = .ok table ∧ table.mounts.Perm mounts
      ∧ ∀ m ∈ mounts, table.resolve (m.base ++ "/") = some ⟨m, none⟩ := by
  have hbases : mounts.map Mount.base = s.bases := bases_of_isOf h
  have hdistinct : mounts.Pairwise fun a b => a.base ≠ b.base := by
    apply List.pairwise_map.mp
    rw [hbases]
    exact hsound.bases
  have hfallback : ∀ mountpoint, s.defaultMount = some mountpoint →
      ∃ m ∈ mounts, m.base = MountSettings.normalize mountpoint := by
    intro mountpoint hdefault
    have hmem := hsound.fallback mountpoint hdefault
    rw [← hbases] at hmem
    exact List.mem_map.mp hmem
  obtain ⟨table, htable⟩ := MountTable.exists_ofMounts hdistinct hfallback
  refine ⟨table, htable, (MountTable.mounts_ofMounts htable).1, fun m hm => ?_⟩
  have hnormal : ∀ m ∈ mounts, ∃ mountpoint, m.base = MountSettings.normalize mountpoint := by
    intro m hm
    have hbase : m.base ∈ s.bases := hbases ▸ List.mem_map_of_mem hm
    obtain ⟨settings, -, hnormalize⟩ := List.mem_map.mp hbase
    exact ⟨settings.mountpoint, hnormalize.symm⟩
  have hrest : m.rest? (m.base ++ "/").toList = some ['/'] :=
    Mount.rest?_eq_some.mpr ⟨by simp, .inr rfl⟩
  exact MountTable.resolve_of_longest htable hdistinct (Mount.isLongest_root hnormal hm) hrest

/-- What is left to be done when the mounts are open does not fail. -/
theorem exists_ofMounts (hsound : s.Sound) (h : List.Forall₂ (Mount.IsOf s) s.mounts mounts)
    (c : Clusters) : ∃ g, ofMounts s mounts c = .ok g := by
  obtain ⟨table, htable, hperm, -⟩ := exists_table hsound h
  have hne : table.mounts ≠ [] := by
    intro hnil
    have hlength := hperm.length_eq
    rw [hnil, ← h.length_eq] at hlength
    exact hsound.mounts (List.eq_nil_of_length_eq_zero hlength.symm)
  unfold ofMounts Engine.create SlotPool.create
  simp only [htable, if_neg hsound.concurrency, bind, Except.bind, if_neg hne]
  exact ⟨_, rfl⟩

end Gateway

/-- If the settings pass the check then mounts that are opened with them, one for each entry, make a
table with just these mounts, there are slots, every mount has a time limit above zero, and the base
of every mountpoint, with a slash behind it, leads to the root of its own mount. So a gateway starts
once its mounts are open, and fails to start only because a mount is denied its cluster or its pool
when it is its turn. -/
theorem checked_settings_route (hcheck : s.check = .ok ()) :
    (∀ mounts, List.Forall₂ (Mount.IsOf s) s.mounts mounts →
      ∃ table slots, MountTable.ofMounts mounts s.defaultMount = .ok table
        ∧ SlotPool.create s.scheduling.concurrency = .ok slots
        ∧ table.mounts.length = s.mounts.length ∧ table.mounts.Perm mounts
        ∧ List.Forall₂ (fun settings m => 0 < m.limit.nanos ∧ table.resolve
            (MountSettings.normalize settings.mountpoint ++ "/") = some ⟨m, none⟩) s.mounts mounts)
    ∧ ∀ (here : DiskPath) (c : Clusters),
      (∃ g mounts c', Gateway.start s here c = (.ok g, c')
        ∧ Gateway.openMounts s here s.mounts [] c = (.ok mounts, c')
        ∧ List.Forall₂ (Mount.IsOf s) s.mounts mounts)
      ∨ ∃ failure c', Gateway.start s here c = (.error failure, c')
        ∧ Gateway.openMounts s here s.mounts [] c = (.error failure, c')
        ∧ ∃ earlier settings later connected c₁, s.mounts = earlier ++ settings :: later
          ∧ Gateway.Opens s here earlier [] c connected c₁
          ∧ Gateway.Denies s here connected c₁ settings failure c' := by
  have hsound := GatewaySettings.check_eq_ok.mp hcheck
  constructor
  · intro mounts hmounts
    obtain ⟨table, htable, hperm, hresolve⟩ := Gateway.exists_table hsound hmounts
    obtain ⟨hlength, hpairs⟩ := List.forall₂_iff_zip.mp hmounts
    refine ⟨table, _, htable, if_neg hsound.concurrency, hperm.length_eq.trans hlength.symm, hperm,
      List.forall₂_iff_zip.mpr ⟨hlength, fun {settings m} hpair => ?_⟩⟩
    have hm : m.IsOf s settings := hpairs hpair
    obtain ⟨hsettings, hmem⟩ := List.of_mem_zip hpair
    constructor
    · rw [hm.limit]
      exact MountSettings.limit_pos hsound.timeout (hsound.timeouts settings hsettings)
    · rw [← hm.base]
      exact hresolve m hmem
  · intro here c
    cases hopened : Gateway.openMounts s here s.mounts [] c with
    | mk result c' =>
      rcases Gateway.openMounts_cases hsound (fun _ h => h) hopened with
        ⟨mounts, rfl, hmounts⟩ | ⟨failure, rfl, hdenied⟩
      · obtain ⟨g, hg⟩ := Gateway.exists_ofMounts hsound hmounts c'
        left
        refine ⟨g, mounts, c', ?_, rfl, hmounts⟩
        unfold Gateway.start
        simp only [hcheck, hopened, hg]
      · right
        refine ⟨failure, c', ?_, rfl, hdenied⟩
        unfold Gateway.start
        simp only [hcheck, hopened]

/-- A mount at the root, which is everywhere. -/
def rootSettings : MountSettings := { mountpoint := "///", pool := "p" }

/-- A mount inside another one. -/
def innerSettings : MountSettings := { mountpoint := "/files/x//", pool := "q", timeout := some 2 }

/-- Nested mounts in no order. -/
def nestedSettings : GatewaySettings where
  mounts := [{ mountpoint := "/files", pool := "p" }, innerSettings, rootSettings]
  defaultMount := some "/files//"

/-- The outermost mount, when it is open. -/
def rootMount : Mount := ⟨"", ⟨0, "p"⟩, 1, {}, .ofSeconds 4⟩

/-- The innermost mount, when it is open. -/
def innerMount : Mount := ⟨"/files/x", ⟨0, "q"⟩, 1, {}, .ofSeconds 2⟩

theorem checked_settings_route_nested :
    nestedSettings.check = .ok ()
      ∧ ∃ table, MountTable.ofMounts
          [⟨"/files", ⟨0, "p"⟩, 1, {}, .ofSeconds 4⟩, innerMount, rootMount]
          (some "/files//") = .ok table
        ∧ table.mounts.length = 3 ∧ table.resolve "/files/x/" = some ⟨innerMount, none⟩
        ∧ table.resolve "/" = some ⟨rootMount, none⟩ := by
  have hcheck : nestedSettings.check = .ok () := by decide +kernel
  have hinner : MountSettings.normalize innerSettings.mountpoint = "/files/x" := by decide +kernel
  have hroot : MountSettings.normalize rootSettings.mountpoint = "" := by decide +kernel
  have hmounts : List.Forall₂ (Mount.IsOf nestedSettings) nestedSettings.mounts
      [⟨"/files", ⟨0, "p"⟩, 1, {}, .ofSeconds 4⟩, innerMount, rootMount] := by
    refine .cons ⟨by decide +kernel, rfl, rfl, rfl, rfl⟩ (.cons ?_ (.cons ?_ .nil))
    · exact ⟨hinner.symm, rfl, rfl, rfl, rfl⟩
    · exact ⟨hroot.symm, rfl, rfl, rfl, rfl⟩
  obtain ⟨table, _, htable, -, hlength, -, hroutes⟩ := (checked_settings_route hcheck).1 _ hmounts
  obtain ⟨-, hrest⟩ := List.forall₂_cons.mp hroutes
  obtain ⟨⟨-, hfirst⟩, hrest⟩ := List.forall₂_cons.mp hrest
  obtain ⟨⟨-, hsecond⟩, -⟩ := List.forall₂_cons.mp hrest
  rw [hinner] at hfirst
  rw [hroot] at hsecond
  exact ⟨hcheck, table, htable, hlength, hfirst, hsecond⟩

end DavGateway
