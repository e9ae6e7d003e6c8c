import DavGateway.Proofs.Store.Folders
import DavGateway.Proofs.Store.Shelf
import DavGateway.Store.Clusters

/-!
# The life of pools

A cluster is asked to make pools, to look them up, and for operations in pools that it has. From a
fresh cluster on, the pools that are there are those that were made (`Cluster.Hosts.run`): a pool
can be made once, is found from then on, and never goes away. A new pool leaves the objects of the
others as they are (`Cluster.createPool_objects`).

In a directory the file with the identity of the cluster stands beside the pools, so its name is not
one that such a cluster takes, though it passes for the name of a pool.
-/

namespace DavGateway

open DirectoryPool (IsAt fileAt)

/-! ## Names -/

theorem Names.ne_up_of_checkPool {name : String} (h : Names.checkPool name = .ok ()) :
    name ≠ ".." := by
  rintro rfl
  cases h

namespace Cluster

/-- The cluster can have a pool with this name. A directory takes names of files, up to the longest,
but not the one that is in use for the identity. -/
def Takes (c : Cluster) (name : String) : Prop :=
  Names.checkPool name = .ok () ∧ match c with
    | .memory _ _ => True
    | .directory _ => '\x00' ∉ name.toList ∧ name.utf8ByteSize ≤ Disk.longestName
      ∧ name ≠ DirectoryCluster.identityFile

/-- Of the pools whose names the cluster takes, those that were made are there. -/
inductive Hosts (made : String → Prop) : Cluster → Disk → Prop
  | memory {identity : String} {cluster : MemoryCluster} {d : Disk}
      (hpools : ∀ name, Names.checkPool name = .ok () →
        (cluster.pools.contains name = true ↔ made name)) :
      Hosts made (.memory identity cluster) d
  | directory {cluster : DirectoryCluster} {d : Disk} {place : DiskPath}
      (hat : IsAt ⟨cluster.root⟩ d place)
      (hthere : ∀ name, Takes (.directory cluster) name → made name →
        d.entry? (place ++ [name]) = some .folder)
      (hmissing : ∀ name, Takes (.directory cluster) name → ¬ made name →
        d.entry? (place ++ [name]) = none) :
      Hosts made (.directory cluster) d

variable {c : Cluster} {d : Disk} {made : String → Prop} {name pool : String} {place : DiskPath}
variable {cluster : DirectoryCluster} {now : Int} {operation : Operation}

/-! ## Single calls -/

theorem walk_of_takes (hat : IsAt ⟨cluster.root⟩ d place)
    (htakes : (Cluster.directory cluster).Takes name) :
    d.walk (cluster.root ++ [name]) = .ok (place ++ [name]) := by
  obtain ⟨hname, hnul, hshort, -⟩ := htakes
  exact Disk.walk_into hat (Names.ne_up_of_checkPool hname) hnul hshort

/-- A pool that was made is found, and cannot be made again. -/
theorem Hosts.of_made (h : Hosts made c d) (htakes : c.Takes name) (hmade : made name) :
    (c.createPool d name).1 = .error (.poolExists name) ∧ c.openPool d name = .ok () := by
  have hname : Names.checkPool name = .ok () := htakes.1
  cases h with
  | memory hpools =>
    have hcontains := (hpools name hname).mpr hmade
    simp only [createPool, openPool, MemoryCluster.createPool, MemoryCluster.openPool, hname,
      hcontains, if_true, and_self]
  | directory hat hthere hmissing =>
    have hwalk := walk_of_takes hat htakes
    have hfolder := hthere name htakes hmade
    have hexists := Disk.makeFolder_eq_exists.mpr (.inr ⟨_, _, hwalk, hfolder⟩)
    have hopens := Disk.isFolder_iff.mpr ⟨_, hwalk, hfolder⟩
    simp only [createPool, openPool, DirectoryCluster.createPool, DirectoryCluster.openPool, hname,
      hexists, hopens, if_true, bind, Except.bind, and_self]

/-- A pool that was not made is not found, and can be made. -/
theorem Hosts.of_not_made (h : Hosts made c d) (htakes : c.Takes name) (hmade : ¬ made name) :
    (c.createPool d name).1 = .ok () ∧ c.openPool d name = .error (.poolNotFound name) := by
  have hname : Names.checkPool name = .ok () := htakes.1
  cases h with
  | memory hpools =>
    have hcontains := mt (hpools name hname).mp hmade
    simp only [createPool, openPool, MemoryCluster.createPool, MemoryCluster.openPool, hname,
      hcontains, if_false, and_self, Bool.false_eq_true]
  | @directory cluster d place hat hthere hmissing =>
    have hwalk := walk_of_takes hat htakes
    have hnone := hmissing name htakes hmade
    have hmake := Disk.makeFolder_eq_ok.mpr ⟨_, hwalk, hnone, rfl⟩
    have hopens : ¬ d.isFolder (cluster.root ++ [name]) = true := by
      intro hfolder
      obtain ⟨place', hat'⟩ := Disk.isFolder_iff.mp hfolder
      cases hwalk.symm.trans hat'.walk
      cases hnone.symm.trans hat'.folder
    simp only [createPool, openPool, DirectoryCluster.createPool, DirectoryCluster.openPool, hname,
      hmake, hopens, if_false, bind, Except.bind, and_self, Bool.false_eq_true]

/-- In a directory, a pool is made as a folder where nothing was, or the disk stays as it is. -/
theorem createPool_directory (cluster : DirectoryCluster) (d : Disk) (name : String) :
    ((cluster.createPool d name).2 = d ∧ (cluster.createPool d name).1 ≠ .ok ())
      ∨ ∃ target, Names.checkPool name = .ok () ∧ d.walk (cluster.root ++ [name]) = .ok target
        ∧ d.entry? target = none ∧ cluster.createPool d name = (.ok (), d.put target .folder) := by
  unfold DirectoryCluster.createPool
  split
  · exact .inl ⟨rfl, nofun⟩
  · next hname =>
    split
    · next d₁ hmake =>
      obtain ⟨target, hwalk, hnone, rfl⟩ := Disk.makeFolder_eq_ok.mp hmake
      exact .inr ⟨target, hname, hwalk, hnone, rfl⟩
    · exact .inl ⟨rfl, nofun⟩
    · exact .inl ⟨rfl, nofun⟩

/-- A folder that is new in the folder of the cluster is one more pool. -/
theorem hosts_put (hat : IsAt ⟨cluster.root⟩ d place)
    (hthere : ∀ other, Takes (.directory cluster) other → made other →
      d.entry? (place ++ [other]) = some .folder)
    (hmissing : ∀ other, Takes (.directory cluster) other → ¬ made other →
      d.entry? (place ++ [other]) = none)
    (hnone : d.entry? (place ++ [name]) = none) :
    Hosts (fun other => made other ∨ other = name) (.directory cluster)
      (d.put (place ++ [name]) .folder) := by
  have hne : place ++ [name] ≠ [] := by simp
  have hkeeps : d.KeepsFolders (d.put (place ++ [name]) .folder) :=
    Disk.keepsFolders_of_agrees (Disk.agrees_put hne) (by simp [hnone])
  refine .directory (hkeeps hat) ?_ ?_
  · intro other hother hmade
    rw [Disk.entry?_put hne]
    by_cases heq : other = name
    · rw [if_pos (by rw [heq])]
    · rw [if_neg (by simpa using heq)]
      exact hthere other hother (hmade.resolve_right heq)
  · intro other hother hmade
    have heq : other ≠ name := fun h => hmade (.inr h)
    rw [Disk.entry?_put hne, if_neg (by simpa using heq)]
    exact hmissing other hother fun h => hmade (.inl h)

/-- A call to make a pool adds this pool, if the cluster takes the name, and no other. -/
theorem Hosts.create (h : Hosts made c d) (name : String) :
    Hosts (fun other => made other ∨ other = name) (c.createPool d name).2.1
      (c.createPool d name).2.2 := by
  cases h with
  | @memory identity cluster d hpools =>
    refine .memory fun other hother => ?_
    rw [← hpools other hother]
    show (cluster.createPool name).2.pools.contains other = true ↔ _
    unfold MemoryCluster.createPool
    split
    · next failure hname =>
      have hne : other ≠ name := by
        rintro rfl
        cases hname.symm.trans hother
      simp [hne]
    · split
      · next hcontains =>
        constructor
        · exact .inl
        · rintro (hthere | rfl)
          · exact hthere
          · exact hcontains
      · unfold Shelf.contains
        rw [Shelf.get?_set]
        by_cases heq : other = name <;> simp [heq]
  | @directory cluster d place hat hthere hmissing =>
    show Hosts _ (.directory cluster) (cluster.createPool d name).2
    rcases createPool_directory cluster d name with
      ⟨hsame, hfails⟩ | ⟨target, hname, hwalk, hnone, hcreate⟩
    · rw [hsame]
      refine .directory hat ?_ ?_
      · rintro other hother (hmade | rfl)
        · exact hthere other hother hmade
        · -- a name that the cluster takes is refused only if the pool was made before
          refine hthere other hother (Classical.byContradiction fun hmade => hfails ?_)
          exact ((Hosts.directory hat hthere hmissing).of_not_made hother hmade).1
      · intro other hother hmade
        exact hmissing other hother fun h => hmade (.inl h)
    · have htarget := hat.walk_below (Names.ne_up_of_checkPool hname) hwalk
      subst htarget
      rw [hcreate]
      exact hosts_put hat hthere hmissing hnone

theorem openPool_directory : (Cluster.directory cluster).openPool d pool = .ok () ↔
    Names.checkPool pool = .ok () ∧ ∃ target, IsAt ⟨cluster.root ++ [pool]⟩ d target := by
  rw [← Disk.isFolder_iff]
  simp only [openPool, DirectoryCluster.openPool, bind, Except.bind]
  cases Names.checkPool pool with
  | error failure => simp
  | ok => simp

/-- Where a pool that can be opened is. -/
theorem isAt_of_openPool (hat : IsAt ⟨cluster.root⟩ d place)
    (h : (Cluster.directory cluster).openPool d pool = .ok ()) :
    IsAt ⟨cluster.root ++ [pool]⟩ d (place ++ [pool]) := by
  obtain ⟨hname, target, htarget⟩ := openPool_directory.mp h
  have hbelow := hat.walk_below (Names.ne_up_of_checkPool hname) htarget.walk
  exact hbelow ▸ htarget

/-- The file of an object is no pool. -/
theorem fileAt_ne_pool (place : DiskPath) (pool name key : String) :
    place ++ [name] ≠ fileAt (place ++ [pool]) key := by
  intro heq
  have hlength := congrArg List.length heq
  simp [fileAt] at hlength

/-- An operation in a pool that can be opened leaves the pools that there are. -/
theorem Hosts.perform (h : Hosts made c d) (hopens : c.openPool d pool = .ok ()) (now : Int)
    (operation : Operation) :
    Hosts made (c.perform d now pool operation).2.1 (c.perform d now pool operation).2.2 := by
  cases h with
  | @memory identity cluster d hpools =>
    refine .memory fun name hname => ?_
    rw [← hpools name hname]
    show (cluster.pools.update pool _).contains name = true ↔ _
    unfold Shelf.contains
    rw [Shelf.get?_update]
    by_cases heq : name = pool
    · rw [if_pos heq, heq, Option.isSome_map]
    · rw [if_neg heq]
  | @directory cluster d place hat hthere hmissing =>
    have hpool := isAt_of_openPool hat hopens
    have htouches := DirectoryPool.perform_touches ⟨cluster.root ++ [pool]⟩ d now operation
    have hsame : ∀ name, Disk.entry?
        (DirectoryPool.perform ⟨cluster.root ++ [pool]⟩ d now operation).2 (place ++ [name]) =
          d.entry? (place ++ [name]) :=
      fun name => htouches.agrees hpool _ (fileAt_ne_pool place pool name _)
    refine .directory (Disk.keepsFolders_touches htouches hat) ?_ ?_
    · intro name hname hmade
      exact (hsame name).trans (hthere name hname hmade)
    · intro name hname hmade
      exact (hsame name).trans (hmissing name hname hmade)

end Cluster

/-! ## Objects of other pools -/

namespace Disk

variable {d : Disk} {path place : DiskPath} {entry : DiskEntry}

/-- What is put elsewhere has no name in the folder. -/
theorem namesAt_put_elsewhere (h : nameAt? place path = none) :
    (d.put path entry).namesAt place = d.namesAt place := by
  unfold namesAt put
  rw [List.filterMap_append, List.filterMap_filter]
  have hnew : [(path, entry)].filterMap (fun e => nameAt? place e.1) = [] := by simp [h]
  rw [hnew, List.append_nil]
  congr 1
  funext e
  by_cases hpath : e.1 = path
  · simp [hpath, h]
  · simp [hpath]

end Disk

namespace DirectoryPool

variable {p : DirectoryPool} {d d₁ : Disk} {place : DiskPath} {key : String}

/-- Two disks on which a pool is at the same place, with the same files. -/
structure SameFiles (p : DirectoryPool) (d d₁ : Disk) (place : DiskPath) : Prop where
  before : p.IsAt d place
  after : p.IsAt d₁ place
  files : ∀ key, d₁.entry? (fileAt place key) = d.entry? (fileAt place key)
  names : d₁.namesAt place = d.namesAt place

namespace SameFiles

theorem walk (h : p.SameFiles d d₁ place) (hkey : Names.checkKey key = .ok ()) :
    d₁.walk (p.folder ++ [FileName.encode key]) = d.walk (p.folder ++ [FileName.encode key]) := by
  rw [h.before.walk_file hkey, h.after.walk_file hkey]

/-- The path of an object leads nowhere on both disks, or to the same entry. -/
theorem cases (h : p.SameFiles d d₁ place) (hkey : Names.checkKey key = .ok ()) :
    (∃ e, d.walk (p.folder ++ [FileName.encode key]) = .error e
        ∧ d₁.walk (p.folder ++ [FileName.encode key]) = .error e)
      ∨ ∃ target, d.walk (p.folder ++ [FileName.encode key]) = .ok target
        ∧ d₁.walk (p.folder ++ [FileName.encode key]) = .ok target
        ∧ d₁.entry? target = d.entry? target := by
  rw [h.walk hkey]
  cases hwalk : d.walk (p.folder ++ [FileName.encode key]) with
  | error e => exact .inl ⟨e, rfl, rfl⟩
  | ok target =>
    obtain ⟨place', hat, rfl⟩ := isAt_of_walk hkey hwalk
    cases h.before.walk.symm.trans hat.walk
    exact .inr ⟨_, rfl, rfl, h.files key⟩

theorem find (h : p.SameFiles d d₁ place) (hkey : Names.checkKey key = .ok ()) :
    d₁.find (p.folder ++ [FileName.encode key]) = d.find (p.folder ++ [FileName.encode key]) := by
  unfold Disk.find
  rcases h.cases hkey with ⟨e, hwalk, hwalk₁⟩ | ⟨target, hwalk, hwalk₁, hentry⟩
  · rw [hwalk, hwalk₁]
    rfl
  · rw [hwalk, hwalk₁]
    simp only [bind, Except.bind, hentry]

theorem stat (h : p.SameFiles d d₁ place) (key : String) : p.stat d₁ key = p.stat d key := by
  unfold DirectoryPool.stat
  cases hpath : p.filePath key with
  | error failure => rfl
  | ok path =>
    obtain ⟨hkey, rfl⟩ := filePath_eq_ok.mp hpath
    simp only [bind, Except.bind, h.find hkey]

theorem read (h : p.SameFiles d d₁ place) (key : String) (length offset : Nat) :
    p.read d₁ key length offset = p.read d key length offset := by
  unfold DirectoryPool.read
  cases hpath : p.filePath key with
  | error failure => rfl
  | ok path =>
    obtain ⟨hkey, rfl⟩ := filePath_eq_ok.mp hpath
    simp only [h.find hkey]

theorem write (h : p.SameFiles d d₁ place) (now : Int) (key : String) (data : Bytes)
    (offset : Nat) : (p.write d₁ now key data offset).1 = (p.write d now key data offset).1 := by
  unfold DirectoryPool.write
  cases hpath : p.filePath key with
  | error failure => rfl
  | ok path =>
    obtain ⟨hkey, rfl⟩ := filePath_eq_ok.mp hpath
    rcases h.cases hkey with ⟨e, hwalk, hwalk₁⟩ | ⟨target, hwalk, hwalk₁, hentry⟩
    · simp only [Disk.changeFile, hwalk, hwalk₁, bind, Except.bind]
    · simp only [Disk.changeFile, hwalk, hwalk₁, bind, Except.bind, hentry]
      cases d.entry? target with
      | none => rfl
      | some entry => cases entry <;> rfl

theorem remove (h : p.SameFiles d d₁ place) (key : String) :
    (p.remove d₁ key).1 = (p.remove d key).1 := by
  unfold DirectoryPool.remove
  cases hpath : p.filePath key with
  | error failure => rfl
  | ok path =>
    obtain ⟨hkey, rfl⟩ := filePath_eq_ok.mp hpath
    rcases h.cases hkey with ⟨e, hwalk, hwalk₁⟩ | ⟨target, hwalk, hwalk₁, hentry⟩
    · simp only [Disk.removeFile, hwalk, hwalk₁, bind, Except.bind]
    · simp only [Disk.removeFile, hwalk, hwalk₁, bind, Except.bind, hentry]
      cases d.entry? target with
      | none => rfl
      | some entry => cases entry <;> rfl

/-- What is answered to an operation depends on the files of the pool only. -/
theorem perform (h : p.SameFiles d d₁ place) (now : Int) (operation : Operation) :
    (p.perform d₁ now operation).1 = (p.perform d now operation).1 := by
  cases operation with
  | stat key => simp only [DirectoryPool.perform, h.stat]
  | read key length offset => simp only [DirectoryPool.perform, h.read]
  | write key data offset => simp only [DirectoryPool.perform, h.write]
  | remove key => simp only [DirectoryPool.perform, h.remove]

theorem keys (h : p.SameFiles d d₁ place) : p.keys d₁ = p.keys d := by
  rw [h.after.keys, h.before.keys, h.names]

end SameFiles

end DirectoryPool

namespace Cluster

variable {c : Cluster} {d : Disk} {pool : String}

theorem createPool_sameFiles {cluster : DirectoryCluster}
    (h : (Cluster.directory cluster).openPool d pool = .ok ()) (name : String) :
    ∃ place, DirectoryPool.SameFiles ⟨cluster.root ++ [pool]⟩ d (cluster.createPool d name).2
      place := by
  obtain ⟨hpool, target, htarget⟩ := openPool_directory.mp h
  obtain ⟨place, hat, rfl⟩ := DirectoryPool.isAt_of_walk_below (p := ⟨cluster.root⟩)
    (Names.ne_up_of_checkPool hpool) htarget.walk
  refine ⟨place ++ [pool], ?_⟩
  rcases createPool_directory cluster d name with
    ⟨hsame, -⟩ | ⟨target, hname, hwalk, hnone, hcreate⟩
  · rw [hsame]
    exact ⟨htarget, htarget, fun _ => rfl, rfl⟩
  · -- the new folder is beside the one of the pool, and so none of its files
    have hbelow := hat.walk_below (Names.ne_up_of_checkPool hname) hwalk
    subst hbelow
    rw [hcreate]
    have hne : place ++ [name] ≠ [] := by simp
    have hagrees : d.Agrees (d.put (place ++ [name]) .folder) (place ++ [name]) :=
      Disk.agrees_put hne
    refine ⟨htarget, Disk.keepsFolders_of_agrees hagrees (by simp [hnone]) htarget, ?_, ?_⟩
    · intro key
      exact hagrees _ (Ne.symm (fileAt_ne_pool place pool name key))
    · refine Disk.namesAt_put_elsewhere ?_
      cases hnew : Disk.nameAt? (place ++ [pool]) (place ++ [name]) with
      | none => rfl
      | some other =>
        have hlength := congrArg List.length (Disk.nameAt?_eq_some.mp hnew)
        simp at hlength

/-- A new pool leaves the objects of the pools that there are as they are: every operation in them
is answered as before, and their listings are the same. -/
theorem createPool_objects (h : c.openPool d pool = .ok ()) (name : String) :
    (∀ now operation, ((c.createPool d name).2.1.perform (c.createPool d name).2.2 now pool
        operation).1 = (c.perform d now pool operation).1)
      ∧ (c.createPool d name).2.1.keys (c.createPool d name).2.2 pool = c.keys d pool := by
  cases c with
  | memory identity cluster =>
    have hsame : (cluster.createPool name).2.pools.get? pool = cluster.pools.get? pool := by
      unfold MemoryCluster.createPool
      split
      · rfl
      · split
        · rfl
        · next hmissing =>
          -- the pool is there, so it is another one than the new one
          have hne : pool ≠ name := by
            rintro rfl
            simp only [openPool, MemoryCluster.openPool, hmissing] at h
            cases h
          rw [Shelf.get?_set, if_neg hne]
    constructor
    · intro now operation
      show ((((cluster.createPool name).2.pools.get? pool).getD {}).perform now operation).1 = _
      rw [hsame]
      rfl
    · show Except.ok (((cluster.createPool name).2.pools.get? pool).getD {}).keys = _
      rw [hsame]
      rfl
  | directory cluster =>
    obtain ⟨place, hsame⟩ := createPool_sameFiles h name
    exact ⟨hsame.perform, hsame.keys⟩

end Cluster

/-! ## Calls one after the other -/

/-- A call on a cluster: a pool is made, or looked up, or opened for an operation at some time. -/
inductive ClusterCall where
  | create (name : String)
  | look (name : String)
  | operate (pool : String) (now : Int) (operation : Operation)
deriving DecidableEq

namespace Cluster

variable {c : Cluster} {d : Disk} {made : String → Prop}

/-- What a call leaves of a cluster and its disk. -/
def after (s : Cluster × Disk) : ClusterCall → Cluster × Disk
  | .create name => (s.1.createPool s.2 name).2
  | .look _ => s
  | .operate pool now operation =>
    match s.1.openPool s.2 pool with
    | .ok () => (s.1.perform s.2 now pool operation).2
    | .error _ => s

/-- What calls leave, made one after the other. -/
def afterAll (s : Cluster × Disk) (calls : List ClusterCall) : Cluster × Disk := calls.foldl after s

theorem Hosts.congr {made' : String → Prop} (h : Hosts made c d)
    (hsame : ∀ name, made name ↔ made' name) : Hosts made' c d := by
  have heq : made = made' := funext fun name => propext (hsame name)
  exact heq ▸ h

/-- After a call there are the pools from before, and the one that the call makes. -/
theorem Hosts.step (h : Hosts made c d) (call : ClusterCall) :
    Hosts (fun name => made name ∨ call = .create name) (after (c, d) call).1
      (after (c, d) call).2 := by
  have hsame : (∀ name, call ≠ .create name) →
      ∀ name, made name ↔ made name ∨ call = .create name := by
    intro hother name
    exact ⟨.inl, fun h => h.resolve_right (hother name)⟩
  cases call with
  | create name =>
    refine (h.create name).congr fun other => ?_
    simp [eq_comm]
  | look name => exact h.congr (hsame nofun)
  | operate pool now operation =>
    rw [after]
    split
    · next hopens => exact (h.perform hopens now operation).congr (hsame nofun)
    · exact h.congr (hsame nofun)

/-- After calls there are the pools from before, and those that one of the calls makes. -/
theorem Hosts.run (h : Hosts made c d) (calls : List ClusterCall) :
    Hosts (fun name => made name ∨ .create name ∈ calls) (afterAll (c, d) calls).1
      (afterAll (c, d) calls).2 := by
  induction calls generalizing c d made with
  | nil => exact h.congr fun name => by simp
  | cons call rest ih =>
    refine (ih (h.step call)).congr fun name => ?_
    rw [List.mem_cons, or_assoc, eq_comm]

theorem takes_after (s : Cluster × Disk) (call : ClusterCall) (name : String) :
    (after s call).1.Takes name ↔ s.1.Takes name := by
  obtain ⟨c, d⟩ := s
  cases call with
  | create name' => cases c <;> exact Iff.rfl
  | look name' => exact Iff.rfl
  | operate pool now operation =>
    rw [after]
    split
    · cases c <;> exact Iff.rfl
    · exact Iff.rfl

/-- The cluster takes the same names after calls. -/
theorem takes_afterAll (s : Cluster × Disk) (calls : List ClusterCall) (name : String) :
    (afterAll s calls).1.Takes name ↔ s.1.Takes name := by
  induction calls generalizing s with
  | nil => exact Iff.rfl
  | cons call rest ih => exact (ih (after s call)).trans (takes_after s call name)

/-! ## Pools stay -/

/-- The second cluster is the first one, perhaps with more pools in memory. -/
inductive Grows : Cluster → Cluster → Prop
  | memory {identity : String} {cluster cluster' : MemoryCluster}
      (hpools : ∀ {name}, cluster.pools.contains name = true →
        cluster'.pools.contains name = true) :
      Grows (.memory identity cluster) (.memory identity cluster')
  | directory (cluster : DirectoryCluster) : Grows (.directory cluster) (.directory cluster)

theorem Grows.refl (c : Cluster) : c.Grows c := by
  cases c with
  | memory identity cluster => exact .memory id
  | directory cluster => exact .directory cluster

/-- A pool that can be opened can be opened in the cluster when it has grown. -/
theorem Grows.openPool {c' : Cluster} {d' : Disk} {pool : String} (h : c.Grows c')
    (hkeeps : d.KeepsFolders d') (hopens : c.openPool d pool = .ok ()) :
    c'.openPool d' pool = .ok () := by
  cases h with
  | memory hpools =>
    simp only [Cluster.openPool, MemoryCluster.openPool] at hopens ⊢
    split at hopens
    · next hcontains => rw [if_pos (hpools hcontains)]
    · cases hopens
  | directory cluster =>
    obtain ⟨hname, target, htarget⟩ := openPool_directory.mp hopens
    exact openPool_directory.mpr ⟨hname, target, hkeeps htarget⟩

/-- Making a pool takes no other away. -/
theorem createPool_grows (c : Cluster) (d : Disk) (name : String) :
    c.Grows (c.createPool d name).2.1 ∧ d.KeepsFolders (c.createPool d name).2.2 := by
  cases c with
  | memory identity cluster =>
    refine ⟨.memory fun {other} hcontains => ?_, id⟩
    show (cluster.createPool name).2.pools.contains other = true
    unfold MemoryCluster.createPool
    split
    · exact hcontains
    · split
      · exact hcontains
      · unfold Shelf.contains at hcontains ⊢
        rw [Shelf.get?_set]
        split
        · rfl
        · exact hcontains
  | directory cluster =>
    refine ⟨.directory cluster, ?_⟩
    show d.KeepsFolders (cluster.createPool d name).2
    rcases createPool_directory cluster d name with
      ⟨hsame, -⟩ | ⟨target, hname, hwalk, hnone, hcreate⟩
    · rw [hsame]
      exact id
    · rw [hcreate]
      exact Disk.keepsFolders_of_agrees (Disk.agrees_put (Disk.ne_nil_of_entry?_eq_none hnone))
        (by simp [hnone])

/-- An operation takes no pool away. -/
theorem perform_grows (c : Cluster) (d : Disk) (now : Int) (pool : String)
    (operation : Operation) : c.Grows (c.perform d now pool operation).2.1
      ∧ d.KeepsFolders (c.perform d now pool operation).2.2 := by
  cases c with
  | memory identity cluster =>
    refine ⟨.memory fun {other} hcontains => ?_, id⟩
    show (cluster.pools.update pool _).contains other = true
    unfold Shelf.contains at hcontains ⊢
    rw [Shelf.get?_update]
    split
    · next heq => rwa [Option.isSome_map, ← heq]
    · exact hcontains
  | directory cluster =>
    exact ⟨.directory cluster, Disk.keepsFolders_touches (DirectoryPool.perform_touches _ _ _ _)⟩

/-- A pool that can be opened can be opened after calls. -/
theorem openPool_afterAll {s : Cluster × Disk} {pool : String}
    (h : s.1.openPool s.2 pool = .ok ()) (calls : List ClusterCall) :
    (afterAll s calls).1.openPool (afterAll s calls).2 pool = .ok () := by
  induction calls generalizing s with
  | nil => exact h
  | cons call rest ih =>
    refine ih ?_
    cases call with
    | create name =>
      obtain ⟨hgrows, hkeeps⟩ := createPool_grows s.1 s.2 name
      exact hgrows.openPool hkeeps h
    | look name => exact h
    | operate other now operation =>
      rw [after]
      split
      · obtain ⟨hgrows, hkeeps⟩ := perform_grows s.1 s.2 now other operation
        exact hgrows.openPool hkeeps h
      · exact h

/-! ## Fresh clusters -/

/-- A cluster that was just connected, with its disk: one in memory, or one in a vacant folder. -/
inductive Fresh : Cluster → Disk → Prop
  | memory (identity : String) (d : Disk) : Fresh (.memory identity .empty) d
  | directory {cluster : DirectoryCluster} {d d' : Disk} {root : DiskPath} {now : Int}
      {identity : String} (hvacant : d.Vacant root)
      (h : DirectoryCluster.connect d root now identity = (.ok cluster, d')) :
      Fresh (.directory cluster) d'

theorem stampIdentity_cases {cluster : DirectoryCluster} {d d' : Disk} {root : DiskPath}
    {now : Int} {identity : String}
    (h : DirectoryCluster.stampIdentity d root now identity = (.ok cluster, d')) :
    cluster.root = root ∧ d.changeFile (root ++ [DirectoryCluster.identityFile]) now
      (fun _ => Bytes.ofText identity) = .ok d' := by
  unfold DirectoryCluster.stampIdentity at h
  split at h
  · next d₁ hchange =>
    cases h
    exact ⟨rfl, hchange⟩
  · cases h

/-- Connecting makes the folder of a cluster, and may write the file with the identity. -/
theorem connect_cases {cluster : DirectoryCluster} {d d' : Disk} {root : DiskPath} {now : Int}
    {identity : String} (h : DirectoryCluster.connect d root now identity = (.ok cluster, d')) :
    cluster.root = root ∧ ∃ d₁, d.makeFolders root = (.ok (), d₁) ∧ (d' = d₁
      ∨ d₁.changeFile (root ++ [DirectoryCluster.identityFile]) now (fun _ => Bytes.ofText identity)
        = .ok d') := by
  unfold DirectoryCluster.connect at h
  split at h
  · cases h
  · next d₁ hmade =>
    split at h
    · split at h
      · cases h
      · split at h
        · obtain ⟨hroot, hchange⟩ := stampIdentity_cases h
          exact ⟨hroot, d₁, hmade, .inr hchange⟩
        · obtain ⟨hcluster, rfl⟩ := Prod.mk.inj h
          cases hcluster
          exact ⟨rfl, d₁, hmade, .inl rfl⟩
    · obtain ⟨hroot, hchange⟩ := stampIdentity_cases h
      exact ⟨hroot, d₁, hmade, .inr hchange⟩
    · cases h

/-- In a fresh cluster no pool has been made. -/
theorem Fresh.hosts (h : Fresh c d) : Hosts (fun _ => False) c d := by
  cases h with
  | memory identity d =>
    refine .memory fun name _ => ?_
    simp [MemoryCluster.empty, Shelf.contains, Shelf.get?]
  | @directory cluster d d' root now identity hvacant hconnect =>
    obtain ⟨hroot, d₁, hmade, hafter⟩ := connect_cases hconnect
    obtain ⟨place, hat, hnone⟩ := hvacant.makeFolders hmade
    rw [← hroot] at hat
    rcases hafter with rfl | hchange
    · exact .directory hat (fun name _ hmade => hmade.elim) fun name _ _ => hnone name
    · -- the file with the identity is the only thing in the folder
      obtain ⟨target, data, hwalk, hfile, rfl⟩ := Disk.changeFile_eq_ok hchange
      have htarget : target = place ++ [DirectoryCluster.identityFile] :=
        hat.walk_below (by decide) (hroot ▸ hwalk)
      subst htarget
      have hne : place ++ [DirectoryCluster.identityFile] ≠ [] := by simp
      have hkeeps : d₁.KeepsFolders (d₁.put (place ++ [DirectoryCluster.identityFile])
          (.file data now)) := Disk.keepsFolders_of_agrees (Disk.agrees_put hne) hfile
      refine .directory (hkeeps hat) (fun name _ hmade => hmade.elim) fun name hname _ => ?_
      rw [Disk.entry?_put hne, if_neg (by simpa using hname.2.2.2)]
      exact hnone name

end Cluster

end DavGateway
