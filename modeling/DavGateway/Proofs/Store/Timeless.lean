import DavGateway.Proofs.Store.Memory

/-!
# Stores without their times

No operation looks at the time of the last change, and the clock is only ever written down. So an
operation on stores without their times (`Clusters.timeless`) does what it does on the stores
themselves, the times aside: stores that differ in their times alone answer alike, and go on to
differ in their times alone.
-/

namespace DavGateway

namespace Shelf

variable {α β : Type}

/-- The shelf with other values under the same keys. -/
def map (f : α → β) (s : Shelf α) : Shelf β where
  entries := s.entries.map fun entry => (entry.1, f entry.2)
  ascending := by
    unfold Ascending
    rw [List.pairwise_map]
    exact s.ascending

theorem ext_entries {s t : Shelf α} (h : s.entries = t.entries) : s = t := by
  cases s
  cases t
  cases h
  rfl

variable (f : α → β) (s : Shelf α) (key : String)

@[simp] theorem get?_map : (s.map f).get? key = (s.get? key).map f := by
  unfold get? map
  rw [List.find?_map, Option.map_map, Option.map_map]
  rfl

@[simp] theorem contains_map : (s.map f).contains key = s.contains key := by
  simp [contains]

@[simp] theorem keys_map : (s.map f).keys = s.keys := by
  simp [keys, map, List.map_map, Function.comp_def]

theorem map_erase : (s.erase key).map f = (s.map f).erase key := by
  refine ext_entries ?_
  simp only [erase, map, List.filter_map]
  rfl

theorem map_set (value : α) : (s.set key value).map f = (s.map f).set key (f value) := by
  refine ext_entries ?_
  unfold set map
  simp only
  induction s.entries with
  | nil => rfl
  | cons entry rest ih =>
    simp only [placeEntry, List.map_cons]
    split
    · rfl
    · split
      · rfl
      · rw [List.map_cons, ih]

theorem map_update (g : α → α) (g' : β → β) (h : ∀ value, f (g value) = g' (f value)) :
    (s.update key g).map f = (s.map f).update key g' := by
  unfold update
  rw [get?_map]
  cases s.get? key with
  | none => rfl
  | some value => rw [map_set, h]; rfl

end Shelf

/-! ## Answers -/

/-- A reply without its time. -/
def Reply.timeless : Reply → Reply
  | .stat s => .stat { s with mtime := 0 }
  | .data bytes => .data bytes
  | .done => .done

/-- An ending without its time. -/
def Ending.timeless (ending : Ending Reply) : Ending Reply := ending.map Reply.timeless

/-! ## Pools in memory -/

/-- An object without its time. -/
def MemoryObject.timeless (object : MemoryObject) : MemoryObject := { object with mtime := 0 }

namespace MemoryPool

/-- A pool without the times of its objects. -/
def timeless (p : MemoryPool) : MemoryPool := ⟨p.objects.map MemoryObject.timeless⟩

theorem write_timeless (p : MemoryPool) (now : Int) (key : String) (data : Bytes) (offset : Nat) :
    p.timeless.write 0 key data offset =
      ((p.write now key data offset).1, (p.write now key data offset).2.timeless) := by
  have hobject : ((p.timeless.objects.get? key).getD {}) =
      ((p.objects.get? key).getD {}).timeless := by
    simp only [timeless, Shelf.get?_map]
    cases p.objects.get? key <;> rfl
  unfold write
  cases Names.checkKey key with
  | error failure => rfl
  | ok =>
    simp only [hobject]
    -- the object that is there before a write breaks off has lost its time as well
    split
    · simp only [timeless, Shelf.map_set]
    · split
      · simp only [timeless, Shelf.map_set]
      · simp only [timeless, Shelf.map_set]
        rfl

theorem remove_timeless (p : MemoryPool) (key : String) :
    p.timeless.remove key = ((p.remove key).1, (p.remove key).2.timeless) := by
  unfold remove
  simp only [timeless, Shelf.contains_map]
  split
  · simp only [Shelf.map_erase]
  · rfl

theorem perform_timeless (p : MemoryPool) (now : Int) (operation : Operation) :
    p.timeless.perform 0 operation =
      ((p.perform now operation).1.timeless, (p.perform now operation).2.timeless) := by
  cases operation with
  | stat key =>
    simp only [perform, stat, timeless, Shelf.get?_map]
    cases p.objects.get? key <;> rfl
  | read key length offset =>
    simp only [perform, read, timeless, Shelf.get?_map]
    cases p.objects.get? key <;> rfl
  | write key data offset =>
    simp only [perform, write_timeless p now]
    rcases (p.write now key data offset).1 with (_ | _) | _ <;> rfl
  | remove key =>
    simp only [perform, remove_timeless]
    cases (p.remove key).1 <;> rfl

end MemoryPool

namespace MemoryCluster

/-- A cluster without the times of its objects. -/
def timeless (c : MemoryCluster) : MemoryCluster := ⟨c.pools.map MemoryPool.timeless⟩

theorem perform_timeless (c : MemoryCluster) (now : Int) (pool : String) (operation : Operation) :
    c.timeless.perform 0 pool operation =
      ((c.perform now pool operation).1.timeless, (c.perform now pool operation).2.timeless) := by
  have hpool : ((c.timeless.pools.get? pool).getD {}) =
      ((c.pools.get? pool).getD {}).timeless := by
    simp only [timeless, Shelf.get?_map]
    cases c.pools.get? pool <;> rfl
  let after := (((c.pools.get? pool).getD {}).perform now operation).2
  have hupdate := Shelf.map_update MemoryPool.timeless c.pools pool (fun _ => after)
    (fun _ => after.timeless) fun _ => rfl
  unfold perform
  rw [hpool, MemoryPool.perform_timeless _ now]
  simp only [timeless, after] at hupdate ⊢
  rw [hupdate]

theorem keys_timeless (c : MemoryCluster) (pool : String) : c.timeless.keys pool = c.keys pool := by
  unfold keys timeless
  rw [Shelf.get?_map]
  cases c.pools.get? pool with
  | none => rfl
  | some p => exact Shelf.keys_map _ _

end MemoryCluster

/-! ## Disks -/

/-- An entry without its time. -/
def DiskEntry.timeless : DiskEntry → DiskEntry
  | .file data _ => .file data 0
  | .folder => .folder

namespace Disk

/-- A disk without the times of its files. -/
def timeless (d : Disk) : Disk := ⟨d.entries.map fun e => (e.1, e.2.timeless)⟩

variable (d : Disk) (path : DiskPath)

theorem lookup_timeless (entries : List (DiskPath × DiskEntry)) :
    (entries.map fun e => (e.1, e.2.timeless)).lookup path =
      (entries.lookup path).map DiskEntry.timeless := by
  induction entries with
  | nil => rfl
  | cons e rest ih =>
    rw [List.map_cons, List.lookup_cons, List.lookup_cons, ih]
    cases path == e.1 <;> rfl

@[simp] theorem entry?_timeless :
    d.timeless.entry? path = (d.entry? path).map DiskEntry.timeless := by
  unfold entry?
  split
  · rfl
  · exact lookup_timeless path d.entries

theorem put_timeless (entry : DiskEntry) :
    (d.put path entry).timeless = d.timeless.put path entry.timeless := by
  simp only [put, timeless, List.map_append, List.filter_map]
  rfl

theorem drop_timeless : (d.drop path).timeless = d.timeless.drop path := by
  simp only [drop, timeless, List.filter_map]
  rfl

@[simp] theorem walkFrom_timeless (parts : List String) (here : DiskPath) :
    d.timeless.walkFrom here parts = d.walkFrom here parts := by
  induction parts generalizing here with
  | nil => rfl
  | cons part rest ih =>
    unfold walkFrom
    rw [entry?_timeless]
    cases d.entry? here with
    | none => rfl
    | some entry =>
      cases entry with
      | file data mtime => rfl
      | folder => simp only [Option.map_some, DiskEntry.timeless, ih]

@[simp] theorem walk_timeless : d.timeless.walk path = d.walk path := by
  unfold walk
  rw [walkFrom_timeless]

theorem find_timeless : d.timeless.find path = (d.find path).map DiskEntry.timeless := by
  unfold find
  rw [walk_timeless]
  cases d.walk path with
  | error e => rfl
  | ok place =>
    simp only [bind, Except.bind, entry?_timeless]
    cases d.entry? place <;> rfl

theorem names_timeless : d.timeless.names path = d.names path := by
  unfold names
  rw [walk_timeless]
  cases d.walk path with
  | error e => rfl
  | ok place =>
    simp only [bind, Except.bind, entry?_timeless]
    cases d.entry? place with
    | none => rfl
    | some entry =>
      cases entry with
      | file data mtime => rfl
      | folder =>
        simp only [Option.map_some, DiskEntry.timeless, timeless, List.filterMap_map]
        rfl

theorem changeFile_timeless (now : Int) (f : Bytes → Bytes) :
    d.timeless.changeFile path 0 f = (d.changeFile path now f).map Disk.timeless := by
  unfold changeFile
  rw [walk_timeless]
  cases d.walk path with
  | error e => rfl
  | ok place =>
    simp only [bind, Except.bind, entry?_timeless]
    cases d.entry? place with
    | none => exact congrArg Except.ok (d.put_timeless place (.file (f []) now)).symm
    | some entry =>
      cases entry with
      | file data mtime => exact congrArg Except.ok (d.put_timeless place (.file (f data) now)).symm
      | folder => rfl

theorem removeFile_timeless :
    d.timeless.removeFile path = (d.removeFile path).map Disk.timeless := by
  unfold removeFile
  rw [walk_timeless]
  cases d.walk path with
  | error e => rfl
  | ok place =>
    simp only [bind, Except.bind, entry?_timeless]
    cases d.entry? place with
    | none => rfl
    | some entry =>
      cases entry with
      | file data mtime => exact congrArg Except.ok (d.drop_timeless place).symm
      | folder => rfl

end Disk

/-! ## Pools in directories -/

namespace DirectoryPool

variable (p : DirectoryPool) (d : Disk) (key : String)

theorem stat_timeless : p.stat d.timeless key =
    (p.stat d key).map fun s => { s with mtime := 0 } := by
  unfold stat
  cases p.filePath key with
  | error failure => rfl
  | ok path =>
    simp only [bind, Except.bind, Disk.find_timeless]
    rcases d.find path with _ | (_ | _) <;> rfl

theorem read_timeless (length offset : Nat) :
    p.read d.timeless key length offset = p.read d key length offset := by
  unfold read
  cases p.filePath key with
  | error failure => rfl
  | ok path =>
    simp only [Disk.find_timeless]
    rcases d.find path with _ | (_ | _) <;> rfl

theorem write_timeless (now : Int) (data : Bytes) (offset : Nat) :
    p.write d.timeless 0 key data offset =
      ((p.write d now key data offset).1, (p.write d now key data offset).2.timeless) := by
  unfold write
  cases p.filePath key with
  | error failure => rfl
  | ok path =>
    simp only [Disk.changeFile_timeless d path now]
    generalize d.changeFile path now _ = changed
    cases changed <;> rfl

theorem remove_timeless :
    p.remove d.timeless key = ((p.remove d key).1, (p.remove d key).2.timeless) := by
  unfold remove
  cases p.filePath key with
  | error failure => rfl
  | ok path =>
    simp only [Disk.removeFile_timeless]
    cases d.removeFile path <;> rfl

theorem keys_timeless : p.keys d.timeless = p.keys d := by
  unfold keys
  rw [Disk.names_timeless]

theorem perform_timeless (now : Int) (operation : Operation) :
    p.perform d.timeless 0 operation =
      ((p.perform d now operation).1.timeless, (p.perform d now operation).2.timeless) := by
  cases operation with
  | stat key =>
    simp only [perform, stat_timeless]
    cases p.stat d key <;> rfl
  | read key length offset =>
    simp only [perform, read_timeless]
    rcases p.read d key length offset with (_ | _) | _ <;> rfl
  | write key data offset =>
    simp only [perform, write_timeless p d key now]
    cases (p.write d now key data offset).1 <;> rfl
  | remove key =>
    simp only [perform, remove_timeless]
    cases (p.remove d key).1 <;> rfl

end DirectoryPool

/-! ## Clusters -/

/-- A cluster without the times of its objects. -/
def Cluster.timeless : Cluster → Cluster
  | .memory identity cluster => .memory identity cluster.timeless
  | .directory cluster => .directory cluster

namespace Clusters

/-- The clusters without the times of their objects, and without those of a clock. -/
def timeless (c : Clusters) : Clusters :=
  { members := c.members.map Cluster.timeless, disk := c.disk.timeless }

variable {c c' : Clusters}

theorem perform_timeless (c : Clusters) (ref : PoolRef) (operation : Operation) :
    c.timeless.perform ref operation =
      ((c.perform ref operation).1.timeless, (c.perform ref operation).2.timeless) := by
  unfold perform
  simp only [timeless, List.getElem?_map]
  cases c.members[ref.cluster]? with
  | none => rfl
  | some member =>
    cases member with
    | memory identity cluster =>
      simp only [Option.map_some, Cluster.timeless, Cluster.perform,
        cluster.perform_timeless c.now, List.map_set]
    | directory cluster =>
      simp only [Option.map_some, Cluster.timeless, Cluster.perform,
        DirectoryPool.perform_timeless _ _ c.now, List.map_set]

theorem list_timeless (c : Clusters) (ref : PoolRef) :
    (c.timeless.list ref).1 = (c.list ref).1 := by
  unfold list
  simp only [timeless, List.getElem?_map]
  cases c.members[ref.cluster]? with
  | none => rfl
  | some member =>
    cases member with
    | memory identity cluster =>
      simp only [Option.map_some, Cluster.timeless, Cluster.keys, cluster.keys_timeless]
    | directory cluster =>
      simp only [Option.map_some, Cluster.timeless, Cluster.keys, DirectoryPool.keys_timeless]

/-- Clusters that differ in their times alone answer alike, and stay so. -/
theorem perform_alike (h : c.timeless = c'.timeless) (ref : PoolRef) (operation : Operation) :
    (c.perform ref operation).1.timeless = (c'.perform ref operation).1.timeless
      ∧ (c.perform ref operation).2.timeless = (c'.perform ref operation).2.timeless := by
  have hperform := c.perform_timeless ref operation
  rw [h, c'.perform_timeless] at hperform
  exact ⟨(Prod.mk.inj hperform).1.symm, (Prod.mk.inj hperform).2.symm⟩

theorem list_alike (h : c.timeless = c'.timeless) (ref : PoolRef) :
    (c.list ref).1 = (c'.list ref).1 := by
  rw [← c.list_timeless, h, c'.list_timeless]

end Clusters

end DavGateway
