import DavGateway.Proofs.Gateway.Routing

/-!
# Where paths lead

In a table of mounts whose bases all differ, every path leads to the longest mount that covers it,
and to the object that is named by what is left of the path (`MountTable.IsBelow`). A path that no
mount covers leads to the default mount, and there the whole path names the object. The order in
which the mounts were given does not matter (`paths_lead_to_longest`).
-/

namespace DavGateway

variable {mounts mounts' : List Mount} {fallback : Option String} {t t' : MountTable}
variable {m : Mount} {path : String}

namespace Mount

/-- The longest mount that covers a path is the longest in any order of the mounts. -/
theorem IsLongest.perm (h : m.IsLongest mounts path) (hperm : mounts'.Perm mounts) :
    m.IsLongest mounts' path :=
  ⟨hperm.mem_iff.mpr h.mem, h.covers,
    fun other hother hcovers => h.longest other (hperm.mem_iff.mp hother) hcovers⟩

/-- Of mounts whose bases all differ, no two have one base. -/
theorem eq_of_base_eq {other : Mount} (hdistinct : mounts.Pairwise fun a b => a.base ≠ b.base)
    (hm : m ∈ mounts) (hother : other ∈ mounts) (hbase : m.base = other.base) : m = other :=
  List.inj_on_of_nodup_map (List.pairwise_map.mpr hdistinct) hm hother hbase

end Mount

namespace MountTable

/-! ## Keys below a mount -/

/-- The key that a path has below a base: what follows the base, less one slash in front of it.
There is no key if nothing is left then. -/
def IsBelow (base path : String) : Option String → Prop
  | none => path = base ∨ path = base ++ "/"
  | some key => key ≠ "" ∧ (path = base ++ "/" ++ key
      ∨ path = base ++ key ∧ ∀ rest, key ≠ "/" ++ rest)

theorem isBelow_keyOf {base : String} {rest : List Char} (h : path.toList = base.toList ++ rest) :
    IsBelow base path (keyOf rest) := by
  cases rest with
  | nil =>
    left
    rw [← String.toList_inj, h, List.append_nil]
  | cons c key =>
    by_cases hslash : c = '/'
    · subst hslash
      cases key with
      | nil =>
        right
        rw [← String.toList_inj, h, String.toList_append]
        rfl
      | cons d key =>
        refine ⟨by simp, .inl ?_⟩
        rw [← String.toList_inj, h]
        simp
    · have hkey : keyOf (c :: key) = some (String.ofList (c :: key)) := by
        unfold keyOf
        split
        · next heq => exact absurd (List.cons.inj heq).1 hslash
        · rfl
      rw [hkey]
      refine ⟨by simp, .inr ⟨?_, fun rest heq => hslash ?_⟩⟩
      · rw [← String.toList_inj, h]
        simp
      · have hlist := congrArg String.toList heq
        rw [String.toList_ofList, String.toList_append] at hlist
        exact (List.cons.inj hlist).1

/-! ## Resolving -/

/-- The default mount is the one with the base that is wanted. -/
theorem fallback_ofMounts (h : ofMounts mounts fallback = .ok t) :
    (fallback = none ∧ t.fallback = none)
      ∨ ∃ mountpoint m, fallback = some mountpoint ∧ t.fallback = some m ∧ m ∈ mounts
        ∧ m.base = MountSettings.normalize mountpoint := by
  unfold ofMounts at h
  simp only at h
  split at h
  · cases h
  · split at h
    · cases h
      exact .inl ⟨rfl, rfl⟩
    · next mountpoint =>
      split at h
      · next m hfound =>
        cases h
        refine .inr ⟨mountpoint, m, rfl, rfl, ?_, by simpa using List.find?_some hfound⟩
        exact List.mem_mergeSort.mp (List.mem_of_find?_eq_some hfound)
      · cases h

/-- A path that no mount covers leads to the default mount. -/
theorem resolve_of_uncovered (h : ofMounts mounts fallback = .ok t)
    (huncovered : ∀ m ∈ mounts, ¬ m.Covers path) :
    t.resolve path = t.fallback.map fun m => ⟨m, keyOf path.toList⟩ := by
  have hnone : t.mounts.findSome? (fun m => (m.rest? path.toList).map fun rest => (m, rest)) =
      none := by
    rw [List.findSome?_eq_none_iff]
    intro m hm
    have hm' := (mounts_ofMounts h).1.mem_iff.mp hm
    cases hrest : m.rest? path.toList with
    | none => rfl
    | some rest => exact absurd (Mount.covers_iff.mpr ⟨rest, hrest⟩) (huncovered m hm')
  unfold resolve
  rw [hnone]
  cases t.fallback <;> rfl

/-- Tables of the same mounts have the same default mount. -/
theorem fallback_perm (hdistinct : mounts.Pairwise fun a b => a.base ≠ b.base)
    (hperm : mounts'.Perm mounts) (h : ofMounts mounts fallback = .ok t)
    (h' : ofMounts mounts' fallback = .ok t') : t'.fallback = t.fallback := by
  rcases fallback_ofMounts h with ⟨hnone, hfallback⟩ | ⟨base, m, rfl, hfallback, hm, hbase⟩
  · rcases fallback_ofMounts h' with ⟨-, hfallback'⟩ | ⟨_, _, hsome, -⟩
    · rw [hfallback, hfallback']
    · rw [hnone] at hsome
      cases hsome
  · rcases fallback_ofMounts h' with ⟨hnone, -⟩ | ⟨_, m', ⟨⟩, hfallback', hm', hbase'⟩
    · cases hnone
    · rw [hfallback, hfallback', Mount.eq_of_base_eq hdistinct (hperm.mem_iff.mp hm') hm
        (hbase'.trans hbase.symm)]

/-- Tables of the same mounts lead every path to the same place. -/
theorem resolve_perm (hdistinct : mounts.Pairwise fun a b => a.base ≠ b.base)
    (hperm : mounts'.Perm mounts) (h : ofMounts mounts fallback = .ok t)
    (h' : ofMounts mounts' fallback = .ok t') (path : String) :
    t'.resolve path = t.resolve path := by
  have hdistinct' : mounts'.Pairwise fun a b => a.base ≠ b.base :=
    hperm.symm.pairwise hdistinct fun hne => hne.symm
  by_cases hcovered : ∃ m ∈ mounts, m.Covers path
  · obtain ⟨m, hm, hcovers⟩ := hcovered
    obtain ⟨longest, hlongest, -⟩ := Mount.exists_isLongest hm hcovers
    obtain ⟨rest, hrest⟩ := Mount.covers_iff.mp hlongest.covers
    rw [resolve_of_longest h hdistinct hlongest hrest,
      resolve_of_longest h' hdistinct' (hlongest.perm hperm) hrest]
  · have huncovered : ∀ m ∈ mounts, ¬ m.Covers path :=
      fun m hm hcovers => hcovered ⟨m, hm, hcovers⟩
    have huncovered' : ∀ m ∈ mounts', ¬ m.Covers path :=
      fun m hm => huncovered m (hperm.mem_iff.mp hm)
    rw [resolve_of_uncovered h huncovered, resolve_of_uncovered h' huncovered',
      fallback_perm hdistinct hperm h h']

end MountTable

/-- In a table of mounts whose bases all differ, a path that is covered leads to the longest mount
that covers it, and there to what is left of it less one slash; any other path leads to the default
mount, and there to all of it less one slash, or nowhere if there is no default mount. In any other
order, the same mounts make a table as well, and it leads the path to the same place. -/
theorem paths_lead_to_longest (hdistinct : mounts.Pairwise fun a b => a.base ≠ b.base)
    (htable : MountTable.ofMounts mounts fallback = .ok t) (path : String) :
    ((∃ m ∈ mounts, m.Covers path) → ∃ m : Mount, m.IsLongest mounts path)
    ∧ (∀ m : Mount, m.IsLongest mounts path →
      ∃ key, t.resolve path = some ⟨m, key⟩ ∧ MountTable.IsBelow m.base path key)
    ∧ ((∀ m ∈ mounts, ¬ m.Covers path) →
      (fallback = none → t.resolve path = none)
      ∧ ∀ mountpoint, fallback = some mountpoint →
        ∃ m ∈ mounts, m.base = MountSettings.normalize mountpoint
          ∧ ∃ key, t.resolve path = some ⟨m, key⟩ ∧ MountTable.IsBelow "" path key)
    ∧ ∀ mounts', mounts'.Perm mounts → ∃ t', MountTable.ofMounts mounts' fallback = .ok t'
      ∧ t'.resolve path = t.resolve path := by
  refine ⟨?_, ?_, ?_, ?_⟩
  · rintro ⟨m, hm, hcovers⟩
    obtain ⟨longest, hlongest, -⟩ := Mount.exists_isLongest hm hcovers
    exact ⟨longest, hlongest⟩
  · intro m hm
    obtain ⟨rest, hrest⟩ := Mount.covers_iff.mp hm.covers
    exact ⟨_, MountTable.resolve_of_longest htable hdistinct hm hrest,
      MountTable.isBelow_keyOf (Mount.rest?_eq_some.mp hrest).1⟩
  · intro huncovered
    have hresolve := MountTable.resolve_of_uncovered htable huncovered
    rcases MountTable.fallback_ofMounts htable with
      ⟨rfl, hfallback⟩ | ⟨mountpoint, m, rfl, hfallback, hm, hbase⟩
    · rw [hfallback] at hresolve
      exact ⟨fun _ => hresolve, nofun⟩
    · rw [hfallback] at hresolve
      refine ⟨nofun, ?_⟩
      rintro _ ⟨⟩
      exact ⟨m, hm, hbase, _, hresolve, MountTable.isBelow_keyOf (by simp)⟩
  · intro mounts' hperm
    have hdistinct' : mounts'.Pairwise fun a b => a.base ≠ b.base :=
      hperm.symm.pairwise hdistinct fun hne => hne.symm
    obtain ⟨t', htable'⟩ : ∃ t', MountTable.ofMounts mounts' fallback = .ok t' := by
      refine MountTable.exists_ofMounts hdistinct' fun mountpoint hmountpoint => ?_
      rcases MountTable.fallback_ofMounts htable with ⟨hnone, -⟩ | ⟨_, m, hsome, -, hm, hbase⟩
      · rw [hnone] at hmountpoint
        cases hmountpoint
      · cases hsome.symm.trans hmountpoint
        exact ⟨m, hperm.mem_iff.mpr hm, hbase⟩
    exact ⟨t', htable', MountTable.resolve_perm hdistinct hperm htable htable' path⟩

/-- A mount with another one inside it. -/
def outerMount : Mount := ⟨"/files", ⟨0, "p"⟩, 1, {}, .ofSeconds 4⟩

theorem paths_lead_to_longest_inner :
    ∃ t t', MountTable.ofMounts [outerMount, innerMount] (some "/files/") = .ok t
      ∧ MountTable.ofMounts [innerMount, outerMount] (some "/files/") = .ok t'
      ∧ (∃ key, t.resolve "/files/x//k" = some ⟨innerMount, key⟩
        ∧ MountTable.IsBelow "/files/x" "/files/x//k" key)
      ∧ (∃ m ∈ [outerMount, innerMount], m.base = "/files" ∧ ∃ key,
        t.resolve "/filesystem/k" = some ⟨m, key⟩ ∧ MountTable.IsBelow "" "/filesystem/k" key)
      ∧ t'.resolve "/filesystem/k" = t.resolve "/filesystem/k" := by
  have hdistinct : [outerMount, innerMount].Pairwise fun a b => a.base ≠ b.base := by
    decide +kernel
  have hlongest : innerMount.IsLongest [outerMount, innerMount] "/files/x//k" :=
    ⟨by simp, by decide +kernel, by decide +kernel⟩
  have huncovered : ∀ m ∈ [outerMount, innerMount], ¬ m.Covers "/filesystem/k" := by
    decide +kernel
  have hnormal : MountSettings.normalize "/files/" = "/files" := by decide +kernel
  have hmounted : ∀ mountpoint, some "/files/" = some mountpoint →
      ∃ m ∈ [outerMount, innerMount], m.base = MountSettings.normalize mountpoint := by
    rintro _ ⟨⟩
    exact ⟨outerMount, by simp, hnormal.symm⟩
  obtain ⟨t, htable⟩ := MountTable.exists_ofMounts hdistinct hmounted
  obtain ⟨-, hcovered, -, -⟩ := paths_lead_to_longest hdistinct htable "/files/x//k"
  obtain ⟨-, -, hfallback, hperm⟩ := paths_lead_to_longest hdistinct htable "/filesystem/k"
  obtain ⟨t', htable', hsame⟩ := hperm [innerMount, outerMount] (.swap _ _ _)
  have hdefault := (hfallback huncovered).2 "/files/" rfl
  rw [hnormal] at hdefault
  exact ⟨t, t', htable, htable', hcovered innerMount hlongest, hdefault, hsame⟩

end DavGateway
