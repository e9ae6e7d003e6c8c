import DavGateway.Http.Multistatus
import DavGateway.Proofs.Mount.Table
import DavGateway.Proofs.Percent

/-!
# References lead back

A listing tells for every entry the path that it can be asked for under. This path is read back as
the base of the mount, a slash and the key, and it leads to the object that is listed, unless a
longer mount covers it and hides the object (`references_lead_back`).
-/

namespace DavGateway

open Http (Entry)

variable {mounts : List Mount} {fallback : Option String} {table : MountTable} {m : Mount}
variable {key path : String}

/-- The reference of an object is read as the base of its mount, a slash and its key. -/
theorem Http.Entry.decode?_href_object (base key : String) (stat : ObjectStat) :
    Percent.decode? (Entry.object base key stat).href = some (base ++ "/" ++ key) := by
  have hwhole : (Entry.object base key stat).href = Percent.encode (base ++ "/" ++ key) := by
    rw [Percent.encode_append, Percent.encode_append, Percent.encode_slash]
    rfl
  rw [hwhole, Percent.decode?_encode]

/-- The reference of the root of a mount is read as its base and a slash. -/
theorem Http.Entry.decode?_href_collection (base : String) :
    Percent.decode? (Entry.collection base).href = some (base ++ "/") := by
  have hwhole : (Entry.collection base).href = Percent.encode (base ++ "/") := by
    rw [Percent.encode_append, Percent.encode_slash]
    rfl
  rw [hwhole, Percent.decode?_encode]

theorem MountTable.keyOf_slash (h : key ≠ "") : keyOf ('/' :: key.toList) = some key := by
  have hne : key.toList.isEmpty = false := by simpa using h
  unfold keyOf
  simp only [hne, String.ofList_toList]
  rfl

/-- A mount is the longest that covers what is below it, unless a longer one covers this as well. -/
theorem Mount.isLongest_iff (hm : m ∈ mounts) (hcovers : m.Covers path) :
    m.IsLongest mounts path ↔
      ∀ other ∈ mounts, other.Covers path → ¬ m.base.utf8ByteSize < other.base.utf8ByteSize := by
  constructor
  · intro h other hother hcovered
    exact Nat.not_lt_of_le (h.longest other hother hcovered)
  · intro h
    exact ⟨hm, hcovers, fun other hother hcovered => Nat.le_of_not_lt (h other hother hcovered)⟩

/-- No mount but this one covers its base with a slash behind it and is as long. -/
theorem Mount.isLongest_root
    (hbases : ∀ m ∈ mounts, ∃ mountpoint, m.base = MountSettings.normalize mountpoint)
    (hm : m ∈ mounts) : m.IsLongest mounts (m.base ++ "/") := by
  refine ⟨hm, .inr ⟨"", by simp⟩, ?_⟩
  intro other hother hcovers
  rcases hcovers with heq | ⟨rest, hrest⟩
  · -- a base does not end with a slash
    obtain ⟨mountpoint, hbase⟩ := hbases other hother
    exact absurd (hbase.symm.trans heq.symm) (Text.withoutEndSlashes_ne mountpoint m.base)
  · have hsizes := congrArg String.utf8ByteSize hrest
    simp only [String.utf8ByteSize_append] at hsizes
    omega

/-- In a table of mounts whose bases all differ, the reference of an object below a mount is read as
the base, a slash and the key. It leads to this object exactly if no longer mount covers it, and
otherwise to the longest mount that does. The reference of a mount's root leads to this root. -/
theorem references_lead_back
    (hbases : ∀ m ∈ mounts, ∃ mountpoint, m.base = MountSettings.normalize mountpoint)
    (hdistinct : mounts.Pairwise fun a b => a.base ≠ b.base)
    (htable : MountTable.ofMounts mounts fallback = .ok table) (hm : m ∈ mounts) :
    (∀ (key : String) (stat : ObjectStat), key ≠ "" →
      ∃ path, path = m.base ++ "/" ++ key
        ∧ Percent.decode? (Entry.object m.base key stat).href = some path
        ∧ (table.resolve path = some ⟨m, some key⟩ ↔
          ∀ other ∈ mounts, other.Covers path → ¬ m.base.utf8ByteSize < other.base.utf8ByteSize)
        ∧ ((∃ other ∈ mounts, other.Covers path ∧ m.base.utf8ByteSize < other.base.utf8ByteSize) →
          ∃ longest : Mount, longest.IsLongest mounts path
            ∧ ∃ rest, longest.rest? path.toList = some rest
              ∧ table.resolve path = some ⟨longest, MountTable.keyOf rest⟩))
    ∧ Percent.decode? (Entry.collection m.base).href = some (m.base ++ "/")
    ∧ table.resolve (m.base ++ "/") = some ⟨m, none⟩ := by
  refine ⟨?_, Entry.decode?_href_collection m.base, ?_⟩
  · intro key stat hkey
    have hcovers : m.Covers (m.base ++ "/" ++ key) := .inr ⟨key, rfl⟩
    have hlongest : (∃ other ∈ mounts, other.Covers (m.base ++ "/" ++ key)
        ∧ m.base.utf8ByteSize < other.base.utf8ByteSize) →
        ∃ longest : Mount, longest.IsLongest mounts (m.base ++ "/" ++ key)
          ∧ m.base.utf8ByteSize < longest.base.utf8ByteSize
          ∧ ∃ rest, longest.rest? (m.base ++ "/" ++ key).toList = some rest
            ∧ table.resolve (m.base ++ "/" ++ key) = some ⟨longest, MountTable.keyOf rest⟩ := by
      rintro ⟨other, hother, hcovered, hlonger⟩
      obtain ⟨longest, hfound, hle⟩ := Mount.exists_isLongest hother hcovered
      obtain ⟨rest, hrest⟩ := Mount.covers_iff.mp hfound.covers
      exact ⟨longest, hfound, by omega, rest, hrest,
        MountTable.resolve_of_longest htable hdistinct hfound hrest⟩
    refine ⟨_, rfl, Entry.decode?_href_object m.base key stat, ?_, ?_⟩
    · rw [← Mount.isLongest_iff hm hcovers]
      constructor
      · intro hresolve
        rw [Mount.isLongest_iff hm hcovers]
        intro other hother hcovered hlonger
        -- the longest mount would have been found, and it is another one
        obtain ⟨longest, -, hlt, rest, -, hfound⟩ := hlongest ⟨other, hother, hcovered, hlonger⟩
        rw [hresolve, Option.some.injEq, Destination.mk.injEq] at hfound
        rw [← hfound.1] at hlt
        exact Nat.lt_irrefl _ hlt
      · intro h
        rw [MountTable.resolve_of_longest htable hdistinct h (m.rest?_append key),
          MountTable.keyOf_slash hkey]
    · intro hother
      obtain ⟨longest, hfound, -, hrest⟩ := hlongest hother
      exact ⟨longest, hfound, hrest⟩
  · have hroot := Mount.isLongest_root hbases hm
    have hrest : m.rest? (m.base ++ "/").toList = some ['/'] :=
      Mount.rest?_eq_some.mpr ⟨by simp, .inr rfl⟩
    exact MountTable.resolve_of_longest htable hdistinct hroot hrest

/-- A mount with the given mountpoint. -/
def mountAt (mountpoint : String) : Mount :=
  { base := MountSettings.normalize mountpoint, ref := ⟨0, "pool"⟩, handles := 1,
    permissions := {}, limit := .ofSeconds 1 }

/-- A mount for everything, one below it, and one below that. -/
def nestedMounts : List Mount := ["/files/ä b/", "/files", "/"].map mountAt

theorem ofMounts_nested : MountTable.ofMounts nestedMounts none = .ok ⟨nestedMounts, none⟩ := by
  have hsorted : nestedMounts.Pairwise fun a b => MountTable.atLeastAsLong a b = true := by
    decide +kernel
  have htwins : MountTable.twin? nestedMounts = none := by decide +kernel
  exact MountTable.ofMounts_of_sorted hsorted htwins

/-- Below the mount in the middle the reference of `/ä%` leads back to it, and `ä b/x` is hidden by
the longest mount. -/
theorem references_lead_back_nested :
    Percent.decode? (Entry.object "/files" "/ä%" ⟨1, 0⟩).href = some "/files//ä%"
      ∧ (⟨nestedMounts, none⟩ : MountTable).resolve "/files//ä%" =
        some ⟨mountAt "/files", some "/ä%"⟩
      ∧ (⟨nestedMounts, none⟩ : MountTable).resolve "/files/ä b/x" ≠
        some ⟨mountAt "/files", some "ä b/x"⟩
      ∧ (⟨nestedMounts, none⟩ : MountTable).resolve "/files/" = some ⟨mountAt "/files", none⟩ := by
  have hbases : ∀ m ∈ nestedMounts, ∃ mountpoint, m.base = MountSettings.normalize mountpoint := by
    intro m hm
    obtain ⟨mountpoint, -, rfl⟩ := List.mem_map.mp hm
    exact ⟨mountpoint, rfl⟩
  have hdistinct : nestedMounts.Pairwise fun a b => a.base ≠ b.base := by decide +kernel
  have hm : mountAt "/files" ∈ nestedMounts := by decide +kernel
  have hbase : (mountAt "/files").base = "/files" := by decide +kernel
  obtain ⟨hobjects, -, hroot⟩ := references_lead_back hbases hdistinct ofMounts_nested hm
  rw [hbase] at hobjects hroot
  obtain ⟨_, rfl, hread, hback, -⟩ := hobjects "/ä%" ⟨1, 0⟩ (by decide +kernel)
  obtain ⟨_, rfl, -, hhidden, -⟩ := hobjects "ä b/x" ⟨1, 0⟩ (by decide +kernel)
  refine ⟨hread, hback.mpr ?_, ?_, hroot⟩
  · decide +kernel
  · intro hresolve
    have hinner : mountAt "/files/ä b/" ∈ nestedMounts := by decide +kernel
    exact hhidden.mp hresolve _ hinner (.inr ⟨"x", by decide +kernel⟩) (by decide +kernel)

end DavGateway
