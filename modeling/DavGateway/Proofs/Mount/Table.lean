import DavGateway.Mount.Table
import Mathlib.Data.Finset.Dedup
import Mathlib.Data.Finset.Max
import Mathlib.Data.List.Perm.Basic

/-!
# The longest mount is found

A mount covers its base and everything that follows it after a slash (`Mount.Covers`). The table
looks at longer bases first, so the mount that it finds for a path is the longest of those that
cover it (`MountTable.resolve_of_longest`). Bases that cover the same path and have the same length
are equal, so there is only one such mount if all bases differ.
-/

namespace DavGateway

/-- What follows a beginning of a text is what the text has behind it. -/
theorem Text.behind?_eq_some {front s rest : List Char} :
    behind? front s = some rest ↔ s = front ++ rest := by
  induction front generalizing s with
  | nil =>
    rw [behind?, Option.some.injEq]
    exact Iff.rfl
  | cons c front ih =>
    cases s with
    | nil =>
      constructor
      · nofun
      · nofun
    | cons d s =>
      rw [behind?, List.cons_append, List.cons.injEq]
      by_cases hsame : c = d
      · rw [if_pos hsame, ih]
        constructor
        · intro hs
          exact ⟨hsame.symm, hs⟩
        · intro hs
          exact hs.2
      · rw [if_neg hsame]
        constructor
        · nofun
        · intro hs
          exact absurd hs.1.symm hsame

/-- A text without the slashes at its end does not end with a slash. -/
theorem Text.withoutEndSlashes_ne (s t : String) : withoutEndSlashes s ≠ t ++ "/" := by
  intro heq
  have hlast : (withoutEndSlashes s).toList.reverse.head? = some '/' := by
    rw [heq, String.toList_append, List.reverse_append]
    rfl
  unfold withoutEndSlashes at hlast
  rw [String.toList_ofList, List.reverse_reverse] at hlast
  have hhead := List.head?_dropWhile_not (· == '/') s.toList.reverse
  rw [hlast] at hhead
  cases hhead

/-- A beginning of a text that is as long as the text is the text. -/
theorem Text.eq_of_prefix {s t : String} (h : s.toList <+: t.toList)
    (hsize : s.utf8ByteSize = t.utf8ByteSize) : s = t := by
  obtain ⟨rest, hrest⟩ := h
  have hsplit : t = s ++ String.ofList rest := by
    rw [← String.toList_inj, ← hrest]
    simp
  have hnone : (String.ofList rest).utf8ByteSize = 0 := by
    have hsum := congrArg String.utf8ByteSize hsplit
    rw [String.utf8ByteSize_append] at hsum
    omega
  rw [hsplit, String.utf8ByteSize_eq_zero_iff.mp hnone, String.append_empty]

namespace Mount

variable {m other : Mount} {path : String}

/-- The path is the base of the mount, or goes on behind it with a slash. -/
def Covers (m : Mount) (path : String) : Prop :=
  path = m.base ∨ ∃ rest, path = m.base ++ "/" ++ rest

theorem rest?_eq_some {path rest : List Char} :
    m.rest? path = some rest ↔
      path = m.base.toList ++ rest ∧ (rest = [] ∨ rest.head? = some '/') := by
  unfold rest?
  rw [Option.filter_eq_some_iff, Text.behind?_eq_some, Bool.or_eq_true, List.isEmpty_iff,
    beq_iff_eq]

/-- A mount covers the paths of which there is a part below it. -/
theorem covers_iff : m.Covers path ↔ ∃ rest, m.rest? path.toList = some rest := by
  constructor
  · rintro (rfl | ⟨rest, rfl⟩)
    · exact ⟨[], rest?_eq_some.mpr ⟨by simp, .inl rfl⟩⟩
    · exact ⟨'/' :: rest.toList, rest?_eq_some.mpr ⟨by simp, .inr rfl⟩⟩
  · rintro ⟨rest, hrest⟩
    obtain ⟨hpath, hshape⟩ := rest?_eq_some.mp hrest
    cases rest with
    | nil =>
      left
      rw [← String.toList_inj, hpath, List.append_nil]
    | cons c rest =>
      right
      have hslash : c = '/' := by simpa using hshape
      refine ⟨String.ofList rest, ?_⟩
      rw [← String.toList_inj, hpath, hslash]
      simp

instance (m : Mount) (path : String) : Decidable (m.Covers path) :=
  decidable_of_iff ((m.rest? path.toList).isSome = true) <| by
    rw [covers_iff, Option.isSome_iff_exists]

/-- Below itself with a slash and a key, a mount has this slash and the key. -/
theorem rest?_append (m : Mount) (key : String) :
    m.rest? (m.base ++ "/" ++ key).toList = some ('/' :: key.toList) :=
  rest?_eq_some.mpr ⟨by simp, .inr rfl⟩

/-- Bases that cover the same path are beginnings of it, so those of one length are equal. -/
theorem Covers.base_eq (h : m.Covers path) (hother : other.Covers path)
    (hsize : m.base.utf8ByteSize = other.base.utf8ByteSize) : m.base = other.base := by
  obtain ⟨rest, hrest⟩ := covers_iff.mp h
  obtain ⟨rest', hrest'⟩ := covers_iff.mp hother
  have hprefix : m.base.toList <+: path.toList := ⟨rest, (rest?_eq_some.mp hrest).1.symm⟩
  have hprefix' : other.base.toList <+: path.toList := ⟨rest', (rest?_eq_some.mp hrest').1.symm⟩
  rcases List.prefix_or_prefix_of_prefix hprefix hprefix' with hfirst | hsecond
  · exact Text.eq_of_prefix hfirst hsize
  · exact (Text.eq_of_prefix hsecond hsize.symm).symm

/-- Of the mounts that cover the path, this one has the longest base. -/
structure IsLongest (m : Mount) (mounts : List Mount) (path : String) : Prop where
  mem : m ∈ mounts
  covers : m.Covers path
  longest : ∀ other ∈ mounts, other.Covers path → other.base.utf8ByteSize ≤ m.base.utf8ByteSize

/-- Where a mount covers the path, one of those that cover it is the longest. -/
theorem exists_isLongest {mounts : List Mount} (hm : m ∈ mounts) (h : m.Covers path) :
    ∃ longest : Mount, longest.IsLongest mounts path
      ∧ m.base.utf8ByteSize ≤ longest.base.utf8ByteSize := by
  have hcovering : m ∈ (mounts.filter (·.Covers path)).toFinset := by
    simpa using ⟨hm, h⟩
  obtain ⟨longest, hmem, hlongest⟩ := Finset.exists_max_image
    (mounts.filter (·.Covers path)).toFinset (·.base.utf8ByteSize) ⟨m, hcovering⟩
  have hmem' : longest ∈ mounts ∧ longest.Covers path := by simpa using hmem
  refine ⟨longest, ⟨hmem'.1, hmem'.2, ?_⟩, hlongest m hcovering⟩
  intro other hother hcovers
  exact hlongest other (by simpa using ⟨hother, hcovers⟩)

end Mount

namespace MountTable

variable {mounts : List Mount} {fallback : Option String} {t : MountTable} {m : Mount}
variable {path : String}

theorem atLeastAsLong_trans (a b c : Mount) (hab : atLeastAsLong a b = true)
    (hbc : atLeastAsLong b c = true) : atLeastAsLong a c = true := by
  simp only [atLeastAsLong, decide_eq_true_eq] at hab hbc ⊢
  omega

theorem atLeastAsLong_total (a b : Mount) : (atLeastAsLong a b || atLeastAsLong b a) = true := by
  simp only [atLeastAsLong, Bool.or_eq_true, decide_eq_true_eq]
  omega

/-- The mounts of a table are the given ones, those with longer bases first. -/
theorem mounts_ofMounts (h : ofMounts mounts fallback = .ok t) :
    t.mounts.Perm mounts
      ∧ t.mounts.Pairwise fun a b => b.base.utf8ByteSize ≤ a.base.utf8ByteSize := by
  have hsame : t.mounts = mounts.mergeSort atLeastAsLong := by
    unfold ofMounts at h
    simp only at h
    split at h
    · cases h
    · split at h
      · cases h
        rfl
      · split at h
        · cases h
          rfl
        · cases h
  rw [hsame]
  constructor
  · exact List.mergeSort_perm mounts atLeastAsLong
  · have hsorted := List.pairwise_mergeSort atLeastAsLong_trans atLeastAsLong_total mounts
    simpa only [atLeastAsLong, decide_eq_true_eq] using hsorted

/-- Mounts that are in the order of a table stay in it. -/
theorem ofMounts_of_sorted (hsorted : mounts.Pairwise fun a b => atLeastAsLong a b = true)
    (htwins : twin? mounts = none) : ofMounts mounts none = .ok ⟨mounts, none⟩ := by
  simp only [ofMounts, List.mergeSort_of_pairwise hsorted, htwins]

/-- If all bases differ, a path leads to the longest mount that covers it, and there to what is left
of the path less one slash. -/
theorem resolve_of_longest (h : ofMounts mounts fallback = .ok t)
    (hdistinct : mounts.Pairwise fun a b => a.base ≠ b.base) (hm : m.IsLongest mounts path)
    {rest : List Char} (hrest : m.rest? path.toList = some rest) :
    t.resolve path = some ⟨m, keyOf rest⟩ := by
  obtain ⟨hperm, hsorted⟩ := mounts_ofMounts h
  have hdiffer : t.mounts.Pairwise fun a b => a.base ≠ b.base :=
    hperm.symm.pairwise hdistinct fun hne => hne.symm
  obtain ⟨before, after, hsplit⟩ := List.append_of_mem (hperm.mem_iff.mpr hm.mem)
  have hnone : ∀ other ∈ before, other.rest? path.toList = none := by
    intro other hother
    cases hcovered : other.rest? path.toList with
    | none => rfl
    | some rest' =>
      -- it is not shorter than the mount, and not longer either, so the bases are equal
      have hcovers : other.Covers path := Mount.covers_iff.mpr ⟨rest', hcovered⟩
      have hmem : other ∈ mounts := by
        apply hperm.mem_iff.mp
        rw [hsplit]
        exact List.mem_append_left _ hother
      have hle := hm.longest other hmem hcovers
      rw [hsplit] at hsorted hdiffer
      have hge := (List.pairwise_append.mp hsorted).2.2 other hother m List.mem_cons_self
      have hne := (List.pairwise_append.mp hdiffer).2.2 other hother m List.mem_cons_self
      exact absurd (hcovers.base_eq hm.covers (by omega)) hne
  have hfound : t.mounts.findSome? (fun m => (m.rest? path.toList).map fun rest => (m, rest)) =
      some (m, rest) := by
    rw [List.findSome?_eq_some_iff]
    refine ⟨before, m, after, hsplit, ?_, ?_⟩
    · rw [hrest]
      rfl
    · intro other hother
      rw [hnone other hother]
      rfl
  unfold resolve
  rw [hfound]
  rfl

end MountTable

end DavGateway
