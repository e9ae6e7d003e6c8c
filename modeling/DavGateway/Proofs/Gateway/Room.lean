import DavGateway.Proofs.Http.Changes
import DavGateway.Proofs.Store.Lifecycle
import DavGateway.Proofs.Store.Memory

/-!
# Room for pools

Whatever is done to clusters, they keep the pools that they have (`Clusters.Retains`). In memory
there is room for every pool with a proper name. In a directory there is room where no file is, and
it stays as long as no objects are kept in the folder of the cluster itself (`Clusters.Apart`).
-/

namespace DavGateway

open DirectoryPool (IsAt fileAt)

/-! ## One cluster -/

namespace Cluster

variable {c c' : Cluster} {cluster : DirectoryCluster} {d d' : Disk} {name : String}

/-- A pool that has been made is there. -/
theorem openPool_of_createPool (h : (c.createPool d name).1 = .ok ()) :
    (c.createPool d name).2.1.openPool (c.createPool d name).2.2 name = .ok () := by
  cases c with
  | memory identity cluster =>
    have hmake : (cluster.createPool name).1 = .ok () := h
    show (cluster.createPool name).2.openPool name = .ok ()
    unfold MemoryCluster.createPool at hmake ⊢
    split at hmake
    · cases hmake
    · next hname =>
      split at hmake
      · cases hmake
      · next hmissing =>
        rw [if_neg hmissing]
        simp [MemoryCluster.openPool, Shelf.contains]
  | directory cluster =>
    rcases createPool_directory cluster d name with
      ⟨-, hfails⟩ | ⟨target, hname, hwalk, hnone, hcreate⟩
    · exact absurd h hfails
    · show (Cluster.directory cluster).openPool (cluster.createPool d name).2 name = .ok ()
      rw [hcreate]
      have hmake : d.makeFolder (cluster.root ++ [name]) = .ok (d.put target .folder) :=
        Disk.makeFolder_eq_ok.mpr ⟨target, hwalk, hnone, rfl⟩
      exact openPool_directory.mpr ⟨hname, Disk.isFolder_iff.mp (Disk.makeFolder_keeps hmake).2⟩

/-- A pool that is there cannot be made. -/
theorem createPool_of_openPool (h : c.openPool d name = .ok ()) :
    (c.createPool d name).1 ≠ .ok () := by
  cases c with
  | memory identity cluster =>
    show (cluster.createPool name).1 ≠ .ok ()
    simp only [openPool, MemoryCluster.openPool] at h
    split at h
    · next hcontains =>
      unfold MemoryCluster.createPool
      split
      · intro hmade
        cases hmade
      · rw [if_pos hcontains]
        intro hmade
        cases hmade
    · cases h
  | directory cluster =>
    obtain ⟨-, place, hat⟩ := openPool_directory.mp h
    rcases createPool_directory cluster d name with ⟨-, hfails⟩ | ⟨target, -, hwalk, hnone, -⟩
    · exact hfails
    · cases hwalk.symm.trans hat.walk
      cases hnone.symm.trans hat.folder

/-- The pool is there, or can be made. -/
def Admits (c : Cluster) (d : Disk) (name : String) : Prop :=
  (c.createPool d name).1 = .ok () ∨ c.openPool d name = .ok ()

/-- In memory there is room for every pool with a proper name. -/
theorem admits_memory {identity : String} {cluster : MemoryCluster} :
    (Cluster.memory identity cluster).Admits d name ↔
      Names.checkPool name = .ok () ∨ cluster.pools.contains name = true := by
  simp only [Admits, createPool, openPool, MemoryCluster.createPool, MemoryCluster.openPool]
  cases Names.checkPool name with
  | error failure => cases cluster.pools.contains name <;> simp
  | ok => cases cluster.pools.contains name <;> simp

/-- In a directory there is room for a pool where no file is. -/
theorem admits_directory : (Cluster.directory cluster).Admits d name ↔
    Names.checkPool name = .ok () ∧ ∃ target, d.walk (cluster.root ++ [name]) = .ok target
      ∧ ∀ data mtime, d.entry? target ≠ some (.file data mtime) := by
  constructor
  · rintro (hcreate | hopens)
    · rcases createPool_directory cluster d name with
        ⟨-, hfails⟩ | ⟨target, hname, hwalk, hnone, -⟩
      · exact absurd hcreate hfails
      · exact ⟨hname, target, hwalk, by simp [hnone]⟩
    · obtain ⟨hname, target, hat⟩ := openPool_directory.mp hopens
      exact ⟨hname, target, hat.walk, by simp [hat.folder]⟩
  · rintro ⟨hname, target, hwalk, hfile⟩
    cases hentry : d.entry? target with
    | none =>
      left
      have hmake := Disk.makeFolder_eq_ok.mpr ⟨target, hwalk, hentry, rfl⟩
      simp only [createPool, DirectoryCluster.createPool, hname, hmake]
    | some entry =>
      cases entry with
      | file data mtime => exact absurd hentry (hfile data mtime)
      | folder => exact .inr (openPool_directory.mpr ⟨hname, target, hwalk, hentry⟩)

/-- When a cluster grows, there is still room for a pool, unless a file comes to lie there. -/
theorem Admits.grows (h : c.Admits d name) (hgrows : c.Grows c') (hfolders : d.KeepsFolders d')
    (hfile : ∀ cluster target, c = .directory cluster →
      d.walk (cluster.root ++ [name]) = .ok target →
      (∀ data mtime, d.entry? target ≠ some (.file data mtime)) →
      ∀ data mtime, d'.entry? target ≠ some (.file data mtime)) : c'.Admits d' name := by
  cases hgrows with
  | memory hpools => exact admits_memory.mpr ((admits_memory.mp h).imp_right hpools)
  | directory cluster =>
    obtain ⟨hname, target, hwalk, hnone⟩ := admits_directory.mp h
    have hwalk' := Disk.walk_of_keeps hfolders (Names.ne_up_of_checkPool hname) hwalk
    exact admits_directory.mpr ⟨hname, target, hwalk', hfile cluster target rfl hwalk hnone⟩

end Cluster

/-! ## All clusters -/

/-- The change is one of an object in certain pools, or a new pool. -/
def Change.Within (kept : PoolRef → Prop) : Change → Prop
  | .write pool _ | .remove pool _ => kept pool
  | .create _ => True

namespace Clusters

variable {c c' c'' : Clusters} {ref other : PoolRef} {member member' : Cluster} {number : Nat}
variable {operation : Operation} {kept : PoolRef → Prop}

/-- All clusters and all their pools are still there. -/
structure Retains (c c' : Clusters) : Prop where
  members : ∀ number : Nat, Option.Rel Cluster.Grows c.members[number]? c'.members[number]?
  folders : c.disk.KeepsFolders c'.disk

theorem Retains.of_same (hmembers : c'.members = c.members) (hdisk : c'.disk = c.disk) :
    c.Retains c' where
  members := fun number => by
    rw [hmembers]
    cases c.members[number]? with
    | none => exact .none
    | some member => exact .some (.refl member)
  folders := by
    rw [hdisk]
    exact id

theorem Retains.refl (c : Clusters) : c.Retains c := .of_same rfl rfl

theorem Retains.dispatcher (c : Clusters) (d : Dispatcher) :
    c.Retains { c with dispatcher := d } := .of_same rfl rfl

theorem Retains.date (c : Clusters) (now : Int) : c.Retains { c with now := now } :=
  .of_same rfl rfl

/-- A cluster grows, and the disk keeps its folders. -/
theorem retains_set {d : Disk} (hmember : c.members[number]? = some member)
    (hgrows : member.Grows member') (hfolders : c.disk.KeepsFolders d) :
    c.Retains { c with members := c.members.set number member', disk := d } where
  members := fun other => by
    have hlt := (List.getElem?_eq_some_iff.mp hmember).1
    by_cases hother : number = other
    · subst hother
      rw [hmember, List.getElem?_set_self hlt]
      exact .some hgrows
    · rw [List.getElem?_set_ne hother]
      exact (Retains.refl c).members other
  folders := hfolders

theorem createPool_retains (c : Clusters) (ref : PoolRef) : c.Retains (c.createPool ref).2 := by
  unfold createPool
  split
  · next member hmember =>
    obtain ⟨hgrows, hfolders⟩ := member.createPool_grows c.disk ref.pool
    exact retains_set hmember hgrows hfolders
  · exact .refl c

theorem perform_retains (c : Clusters) (ref : PoolRef) (operation : Operation) :
    c.Retains (c.perform ref operation).2 := by
  unfold perform
  split
  · next member hmember =>
    obtain ⟨hgrows, hfolders⟩ := member.perform_grows c.disk c.now ref.pool operation
    exact retains_set hmember hgrows hfolders
  · exact .refl c

/-- The pool is there. -/
def Opens (c : Clusters) (ref : PoolRef) : Prop := (c.openPool ref).1 = .ok ()

theorem opens_iff : c.Opens ref ↔
    ∃ member, c.members[ref.cluster]? = some member ∧ member.openPool c.disk ref.pool = .ok () := by
  unfold Opens openPool
  cases c.members[ref.cluster]? with
  | none => simp
  | some member => simp

theorem Retains.opens (h : c.Retains c') (hopens : c.Opens ref) : c'.Opens ref := by
  obtain ⟨member, hmember, hopened⟩ := opens_iff.mp hopens
  have hrel := h.members ref.cluster
  rw [hmember] at hrel
  cases hmember' : c'.members[ref.cluster]? with
  | none =>
    rw [hmember'] at hrel
    cases hrel
  | some member' =>
    rw [hmember'] at hrel
    cases hrel with
    | some hgrows => exact opens_iff.mpr ⟨member', hmember', hgrows.openPool h.folders hopened⟩

theorem opens_of_createPool (h : (c.createPool ref).1 = .ok ()) :
    (c.createPool ref).2.Opens ref := by
  unfold createPool at h ⊢
  cases hmember : c.members[ref.cluster]? with
  | none =>
    rw [hmember] at h
    cases h
  | some member =>
    rw [hmember] at h
    have hlt := (List.getElem?_eq_some_iff.mp hmember).1
    exact opens_iff.mpr ⟨_, List.getElem?_set_self hlt, Cluster.openPool_of_createPool h⟩

theorem createPool_of_opens (h : c.Opens ref) : (c.createPool ref).1 ≠ .ok () := by
  obtain ⟨member, hmember, hopens⟩ := opens_iff.mp h
  unfold createPool
  rw [hmember]
  exact Cluster.createPool_of_openPool hopens

/-- The pool is there, or can be made. -/
def Admits (c : Clusters) (ref : PoolRef) : Prop := (c.createPool ref).1 = .ok () ∨ c.Opens ref

theorem admits_iff : c.Admits ref ↔
    ∃ member, c.members[ref.cluster]? = some member ∧ member.Admits c.disk ref.pool := by
  unfold Admits createPool Opens openPool
  cases c.members[ref.cluster]? with
  | none => simp
  | some member => simp [Cluster.Admits]

/-- In a directory, none of the pools that objects are kept in is the folder of the cluster. -/
def Apart (kept : PoolRef → Prop) (number : Nat) (c : Clusters) : Prop :=
  ∀ cluster, c.members[number]? = some (.directory cluster) →
    ∃ place, IsAt ⟨cluster.root⟩ c.disk place ∧ ∀ ref other, kept ref →
      c.members[ref.cluster]? = some (.directory other) →
      ∃ folder, IsAt ⟨other.root ++ [ref.pool]⟩ c.disk folder ∧ folder ≠ place

theorem Retains.directory_of_after {cluster : DirectoryCluster} (h : c.Retains c')
    (hmember : c'.members[number]? = some (.directory cluster)) :
    c.members[number]? = some (.directory cluster) := by
  have hrel := h.members number
  rw [hmember] at hrel
  cases hbefore : c.members[number]? with
  | none =>
    rw [hbefore] at hrel
    cases hrel
  | some member =>
    rw [hbefore] at hrel
    cases hrel with
    | some hgrows =>
      cases hgrows
      rfl

theorem Apart.retains (h : c.Apart kept number) (hretains : c.Retains c') :
    c'.Apart kept number := by
  intro cluster hcluster
  obtain ⟨place, hat, hkept⟩ := h cluster (hretains.directory_of_after hcluster)
  refine ⟨place, hretains.folders hat, fun ref other href hother => ?_⟩
  obtain ⟨folder, hfolder, hne⟩ := hkept ref other href (hretains.directory_of_after hother)
  exact ⟨folder, hretains.folders hfolder, hne⟩

theorem Admits.retains (h : c.Admits ref) (hretains : c.Retains c')
    (hfile : ∀ cluster target, c.members[ref.cluster]? = some (.directory cluster) →
      c.disk.walk (cluster.root ++ [ref.pool]) = .ok target →
      (∀ data mtime, c.disk.entry? target ≠ some (.file data mtime)) →
      ∀ data mtime, c'.disk.entry? target ≠ some (.file data mtime)) : c'.Admits ref := by
  obtain ⟨member, hmember, hadmits⟩ := admits_iff.mp h
  have hrel := hretains.members ref.cluster
  rw [hmember] at hrel
  cases hafter : c'.members[ref.cluster]? with
  | none =>
    rw [hafter] at hrel
    cases hrel
  | some member' =>
    rw [hafter] at hrel
    cases hrel with
    | some hgrows =>
      refine admits_iff.mpr ⟨member', hafter, hadmits.grows hgrows hretains.folders ?_⟩
      rintro cluster target rfl hwalk hnone
      exact hfile cluster target hmember hwalk hnone

/-- A new folder is no file, so there is room for the other pools. -/
theorem Admits.createPool (h : c.Admits ref) (other : PoolRef) :
    (c.createPool other).2.Admits ref := by
  refine h.retains (c.createPool_retains other) ?_
  intro cluster target hcluster hwalk hfile
  unfold Clusters.createPool
  split
  · next member hmember =>
    cases member with
    | memory identity cluster => exact hfile
    | directory cluster' =>
      show ∀ data mtime, Disk.entry? (cluster'.createPool c.disk other.pool).2 target ≠
        some (.file data mtime)
      rcases Cluster.createPool_directory cluster' c.disk other.pool with
        ⟨hsame, -⟩ | ⟨place, -, -, hnone, hcreate⟩
      · rw [hsame]
        exact hfile
      · intro data mtime
        rw [hcreate, Disk.entry?_put (Disk.ne_nil_of_entry?_eq_none hnone)]
        split
        · nofun
        · exact hfile data mtime
  · exact hfile

theorem Admits.checkPool {cluster : DirectoryCluster} (h : c.Admits ref)
    (hcluster : c.members[ref.cluster]? = some (.directory cluster)) :
    Names.checkPool ref.pool = .ok () := by
  obtain ⟨member, hmember, hadmits⟩ := admits_iff.mp h
  cases hcluster.symm.trans hmember
  exact (Cluster.admits_directory.mp hadmits).1

/-- An operation on an object that is kept elsewhere puts no file where a pool would be. -/
theorem Admits.perform (h : c.Admits ref) (hapart : c.Apart kept ref.cluster)
    (hmakes : (SessionCall.operate operation).Makes (Change.Within kept) other) :
    (c.perform other operation).2.Admits ref := by
  refine h.retains (c.perform_retains other operation) ?_
  intro cluster target hcluster hwalk hfile
  unfold Clusters.perform
  split
  · next member hmember =>
    cases member with
    | memory identity cluster => exact hfile
    | directory cluster' =>
      let pool : DirectoryPool := ⟨cluster'.root ++ [other.pool]⟩
      -- the file that is changed is in the folder of another pool
      have helsewhere : kept other →
          Disk.entry? (pool.perform c.disk c.now operation).2 target = c.disk.entry? target := by
        intro hother
        obtain ⟨place, hat, hkept⟩ := hapart cluster hcluster
        obtain ⟨folder, hfolder, hne⟩ := hkept other cluster' hother hmember
        have htarget := hat.walk_below (Names.ne_up_of_checkPool (h.checkPool hcluster)) hwalk
        refine (pool.perform_touches c.disk c.now operation).agrees hfolder target fun heq => hne ?_
        have hparent := congrArg List.dropLast (htarget.symm.trans heq)
        simpa [fileAt] using hparent.symm
      intro data mtime
      show Disk.entry? (pool.perform c.disk c.now operation).2 target ≠ some (.file data mtime)
      cases operation with
      | stat key | read key length offset => exact hfile data mtime
      | write key bytes offset =>
        rw [helsewhere (hmakes (.write other key) rfl)]
        exact hfile data mtime
      | remove key =>
        rw [helsewhere (hmakes (.remove other key) rfl)]
        exact hfile data mtime
  · exact hfile

end Clusters

end DavGateway
