import DavGateway.Proofs.Store.Shelf
import DavGateway.Session
import DavGateway.Store.Clusters
import Mathlib.Logic.Function.Basic

/-!
# Memory pools as maps

What the operations on a pool in memory do to its look-ups, and how a pool is found in its
cluster: an operation on one pool of the clusters changes this pool only.
-/

namespace DavGateway

/-- A write whose end no memory can hold breaks off; every other call of a session is small. -/
def SessionCall.Small : SessionCall → Prop
  | .operate (.write _ data offset) => offset + data.length < Text.signedLimit
  | .operate _ | .list | .advance _ => True

/-- Size and time of an object. -/
def MemoryObject.stat (object : MemoryObject) : ObjectStat := ⟨object.data.length, object.mtime⟩

namespace MemoryPool

variable {p : MemoryPool} {now : Int} {key other : String} {data : Bytes} {offset : Nat}

/-- Answers a call of a session from the pool alone. -/
def answer (p : MemoryPool) (now : Int) : (call : SessionCall) → call.Answer × MemoryPool
  | .operate operation => ((p.perform now operation).1.result, (p.perform now operation).2)
  | .list => (.ok p.keys, p)
  | .advance _ => (.ok (), p)

/-! ## Operations -/

theorem stat_of_some {object : MemoryObject} (h : p.objects.get? key = some object) :
    p.stat key = .ok object.stat := by
  unfold stat
  rw [h]
  rfl

theorem stat_of_none (h : p.objects.get? key = none) :
    p.stat key = .error (.objectNotFound key) := by
  unfold stat
  rw [h]

theorem content?_eq_none : p.content? key = none ↔ p.objects.get? key = none := Option.map_eq_none_iff

theorem content?_set (key : String) (object : MemoryObject) :
    content? ⟨p.objects.set key object⟩ = Function.update p.content? key (some object.data) := by
  funext other
  by_cases hother : other = key
  · rw [content?, Shelf.get?_set, if_pos hother, hother, Function.update_self]
    rfl
  · rw [content?, Shelf.get?_set, if_neg hother, Function.update_of_ne hother]
    rfl

theorem content?_erase (key : String) :
    content? ⟨p.objects.erase key⟩ = Function.update p.content? key none := by
  funext other
  by_cases hother : other = key
  · rw [content?, Shelf.get?_erase, if_pos hother, hother, Function.update_self]
    rfl
  · rw [content?, Shelf.get?_erase, if_neg hother, Function.update_of_ne hother]
    rfl

/-- A small write is carried out, and lays its data over the object. -/
theorem write_of_small (hkey : Names.checkKey key = .ok ())
    (hsmall : offset + data.length < Text.signedLimit) :
    p.write now key data offset = (.returned (.ok ()),
      ⟨p.objects.set key ⟨((p.content? key).getD []).overlay offset data, now⟩⟩) := by
  have hword : offset + data.length < Text.wordLimit :=
    Nat.lt_trans hsmall (by decide)
  unfold write content?
  rw [hkey]
  simp only [if_neg (Nat.not_le_of_lt hword), if_neg (Nat.not_le_of_lt hsmall)]
  cases p.objects.get? key <;> rfl

/-- A write to a valid key whose end no memory can hold breaks off. The object has been made by
then, if there was none. -/
theorem write_of_large (now : Int) (hkey : Names.checkKey key = .ok ())
    (hlarge : Text.signedLimit ≤ offset + data.length) :
    p.write now key data offset =
      (.broken (if offset + data.length < Text.wordLimit then .capacityOverflow else .lengthOverflow),
        ⟨p.objects.set key ((p.objects.get? key).getD {})⟩) := by
  unfold write
  rw [hkey]
  simp only [if_pos hlarge]
  split
  · next hword => rw [if_neg (Nat.not_lt_of_le hword)]
  · next hword => rw [if_pos (Nat.lt_of_not_le hword)]

/-- Every operation of a small call is carried out to its end. -/
theorem perform_returns (p : MemoryPool) (now : Int) {operation : Operation}
    (h : (SessionCall.operate operation).Small) :
    ∃ result, (p.perform now operation).1 = .returned result := by
  cases operation with
  | stat key => exact ⟨_, rfl⟩
  | read key length offset => exact ⟨_, rfl⟩
  | remove key => exact ⟨_, rfl⟩
  | write key data offset =>
    cases hkey : Names.checkKey key with
    | error failure => exact ⟨.error failure, by simp only [perform, write, hkey]; rfl⟩
    | ok => exact ⟨.ok .done, by simp only [perform, write_of_small hkey h]; rfl⟩

end MemoryPool

/-! ## Pools of clusters -/

/-- A pool of a memory cluster. -/
def Cluster.pool? : Cluster → String → Option MemoryPool
  | .memory _ cluster, name => cluster.pools.get? name
  | .directory _, _ => none

namespace Clusters

variable {c : Clusters} {ref : PoolRef} {p : MemoryPool}

/-- A pool of the clusters. -/
def poolAt? (c : Clusters) (ref : PoolRef) : Option MemoryPool :=
  (c.members[ref.cluster]?).bind fun cluster => cluster.pool? ref.pool

/-- The bytes of an object. -/
def content? (c : Clusters) (ref : PoolRef) (key : String) : Option Bytes :=
  (c.poolAt? ref).bind fun p => p.content? key

/-- An operation on a pool answers as the pool does, and changes this pool only. -/
theorem perform_of_poolAt? (h : c.poolAt? ref = some p) (operation : Operation) :
    ∃ c', c.perform ref operation = ((p.perform c.now operation).1, c')
      ∧ (∀ other, c'.poolAt? other =
        if other = ref then some (p.perform c.now operation).2 else c.poolAt? other)
      ∧ c'.now = c.now ∧ c'.dispatcher = c.dispatcher := by
  rcases Option.bind_eq_some_iff.mp h with ⟨member, hmember, hpool⟩
  cases member with
  | directory cluster => cases hpool
  | memory identity cluster =>
    have hpool : cluster.pools.get? ref.pool = some p := hpool
    simp only [perform, hmember, Cluster.perform, MemoryCluster.perform, hpool, Option.getD_some]
    refine ⟨_, rfl, fun other => ?_, rfl, rfl⟩
    have hlt : ref.cluster < c.members.length := (List.getElem?_eq_some_iff.mp hmember).1
    unfold poolAt?
    rw [List.getElem?_set]
    by_cases hcluster : ref.cluster = other.cluster
    · rw [if_pos hcluster, if_pos hlt, ← hcluster, hmember]
      simp only [Option.bind_some, Cluster.pool?, Shelf.get?_update, hpool, Option.map_some]
      by_cases hname : other.pool = ref.pool
      · have heq : other = ref := by
          cases other
          cases ref
          cases hname
          cases hcluster
          rfl
        rw [if_pos hname, if_pos heq]
      · rw [if_neg hname, if_neg fun heq : other = ref => hname (heq ▸ rfl)]
    · rw [if_neg hcluster, if_neg fun heq : other = ref => hcluster (heq ▸ rfl)]

/-- A listing has the keys of the pool. -/
theorem list_of_poolAt? (h : c.poolAt? ref = some p) : c.list ref = (.ok p.keys, c) := by
  rcases Option.bind_eq_some_iff.mp h with ⟨member, hmember, hpool⟩
  cases member with
  | directory cluster => cases hpool
  | memory identity cluster =>
    have hpool : cluster.pools.get? ref.pool = some p := hpool
    simp only [list, hmember, Cluster.keys, MemoryCluster.keys, hpool, Option.getD_some]

/-- A listing changes nothing. -/
theorem list_snd (c : Clusters) (ref : PoolRef) : (c.list ref).2 = c := by
  unfold list
  split <;> rfl

/-- Making a pool makes it empty, and changes no pool that is there. -/
theorem poolAt?_createPool (c : Clusters) (ref other : PoolRef) :
    (c.createPool ref).2.poolAt? other = c.poolAt? other ∨
      c.poolAt? other = none ∧ (c.createPool ref).2.poolAt? other = some {} := by
  unfold createPool
  cases hmember : c.members[ref.cluster]? with
  | none => exact .inl rfl
  | some member =>
    have hlt : ref.cluster < c.members.length := (List.getElem?_eq_some_iff.mp hmember).1
    unfold poolAt?
    simp only [List.getElem?_set]
    by_cases hcluster : ref.cluster = other.cluster
    · rw [if_pos hcluster, if_pos hlt, ← hcluster, hmember]
      simp only [Option.bind_some]
      cases member with
      | directory cluster => exact .inl rfl
      | memory identity cluster =>
        simp only [Cluster.createPool, Cluster.pool?, MemoryCluster.createPool]
        split
        · exact .inl rfl
        · split
          · exact .inl rfl
          · next habsent =>
            rw [Shelf.get?_set]
            by_cases hname : other.pool = ref.pool
            · have hnone : cluster.pools.get? ref.pool = none := by simpa [Shelf.contains] using habsent
              rw [if_pos hname, hname]
              exact .inr ⟨hnone, rfl⟩
            · rw [if_neg hname]
              exact .inl rfl
    · rw [if_neg hcluster]
      exact .inl rfl

theorem content?_createPool (c : Clusters) (ref other : PoolRef) (key : String) :
    (c.createPool ref).2.content? other key = c.content? other key := by
  unfold content?
  rcases c.poolAt?_createPool ref other with hsame | ⟨hnone, hempty⟩
  · rw [hsame]
  · rw [hnone, hempty]
    rfl

theorem poolAt?_createPool_of_some (c : Clusters) (ref : PoolRef) {other : PoolRef}
    (h : c.poolAt? other = some p) : (c.createPool ref).2.poolAt? other = some p := by
  rcases c.poolAt?_createPool ref other with hsame | ⟨hnone, -⟩
  · exact hsame.trans h
  · rw [h] at hnone
    cases hnone

theorem createPool_keeps (c : Clusters) (ref : PoolRef) :
    (c.createPool ref).2.now = c.now ∧ (c.createPool ref).2.dispatcher = c.dispatcher := by
  unfold createPool
  split <;> exact ⟨rfl, rfl⟩

end Clusters

end DavGateway
