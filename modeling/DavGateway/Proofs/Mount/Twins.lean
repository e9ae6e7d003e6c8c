import DavGateway.Proofs.Gateway.Routing

/-!
# Mounts with the same base

A table of mounts is put in the order of the lengths of the bases, and only neighbours are compared.
So it is refused for two mounts with the same base exactly if no other base of their length stands
between them in the list (`MountTable.MeetTwins`), which depends on the order of the list
(`tables_refused`). The check of the settings finds all such mounts (`parted_twins_accepted`).
-/

namespace DavGateway

/-- Two entries follow each other in what is left of a list if nothing between them is left. -/
theorem List.exists_filter_adjacent {α : Type} {p : α → Bool} {a b : α} {l : List α} :
    (∃ before after, l.filter p = before ++ a :: b :: after) ↔
      ∃ before between after, l = before ++ a :: (between ++ b :: after)
        ∧ p a = true ∧ p b = true ∧ ∀ x ∈ between, ¬ p x = true := by
  constructor
  · rintro ⟨before, after, hfilter⟩
    obtain ⟨front, rest, rfl, -, hrest⟩ := List.filter_eq_append_iff.mp hfilter
    obtain ⟨skipped, rest, rfl, -, ha, hrest⟩ := List.filter_eq_cons_iff.mp hrest
    obtain ⟨between, rest, rfl, hbetween, hb, -⟩ := List.filter_eq_cons_iff.mp hrest
    exact ⟨front ++ skipped, between, rest, by simp, ha, hb, hbetween⟩
  · rintro ⟨before, between, after, rfl, ha, hb, hbetween⟩
    refine ⟨before.filter p, after.filter p, ?_⟩
    rw [List.filter_append, List.filter_cons_of_pos ha, List.filter_append,
      List.filter_cons_of_pos hb, List.filter_eq_nil_iff.mpr hbetween, List.nil_append]

namespace MountTable

variable {mounts : List Mount} {fallback : Option String} {n : Nat}

/-- Two mounts of the list have the same base, and between them there is no base of its length. -/
def MeetTwins (mounts : List Mount) : Prop :=
  ∃ before a between b after, mounts = before ++ a :: (between ++ b :: after) ∧ a.base = b.base
    ∧ ∀ m ∈ between, m.base.utf8ByteSize ≠ a.base.utf8ByteSize

/-! ## The order of a table -/

/-- Mounts with bases of one length stay in their order. -/
theorem filter_mergeSort (mounts : List Mount) (n : Nat) :
    (mounts.mergeSort atLeastAsLong).filter (fun m => m.base.utf8ByteSize == n) =
      mounts.filter fun m => m.base.utf8ByteSize == n := by
  have hsame : (mounts.filter fun m => m.base.utf8ByteSize == n).Pairwise
      fun a b => atLeastAsLong a b = true := by
    refine List.pairwise_of_forall_mem_list fun a ha b hb => ?_
    have hsizes : a.base.utf8ByteSize = n ∧ b.base.utf8ByteSize = n :=
      ⟨by simpa using (List.mem_filter.mp ha).2, by simpa using (List.mem_filter.mp hb).2⟩
    simp only [atLeastAsLong, decide_eq_true_eq, hsizes, Nat.le_refl]
  have hsublist := List.sublist_mergeSort atLeastAsLong_trans atLeastAsLong_total hsame
    List.filter_sublist
  -- what is left of the sorted list is no longer, so it is the same
  have hleft := hsublist.filter fun m => m.base.utf8ByteSize == n
  simp only [List.filter_filter, Bool.and_self] at hleft
  have hlength := ((List.mergeSort_perm mounts atLeastAsLong).filter
    fun m => m.base.utf8ByteSize == n).length_eq
  exact (hleft.eq_of_length hlength.symm).symm

theorem twin?_isSome (mounts : List Mount) :
    (twin? mounts).isSome ↔
      ∃ before a b after, mounts = before ++ a :: b :: after ∧ a.base = b.base := by
  induction mounts with
  | nil => simp [twin?]
  | cons first rest ih =>
    cases rest with
    | nil => simp [twin?, List.cons_eq_append_iff]
    | cons second rest =>
      by_cases hsame : first.base = second.base
      · have hfound : (twin? (first :: second :: rest)).isSome := by simp [twin?, hsame]
        exact iff_of_true hfound ⟨[], first, second, rest, rfl, hsame⟩
      · have hskip : twin? (first :: second :: rest) = twin? (second :: rest) := by
          simp [twin?, hsame]
        rw [hskip, ih]
        constructor
        · rintro ⟨before, a, b, after, hsplit, hbase⟩
          exact ⟨first :: before, a, b, after, by rw [hsplit]; rfl, hbase⟩
        · rintro ⟨before, a, b, after, hsplit, hbase⟩
          cases before with
          | nil =>
            cases hsplit
            exact absurd hbase hsame
          | cons head before =>
            exact ⟨before, a, b, after, (List.cons.inj hsplit).2, hbase⟩

/-- In the order of the table, mounts with the same base are neighbours exactly if they meet in the
list. -/
theorem twin?_mergeSort (mounts : List Mount) :
    (twin? (mounts.mergeSort atLeastAsLong)).isSome ↔ MeetTwins mounts := by
  have hsorted := List.pairwise_mergeSort atLeastAsLong_trans atLeastAsLong_total mounts
  rw [twin?_isSome]
  constructor
  · rintro ⟨before, a, b, after, hsplit, hbase⟩
    -- both are left among the mounts of their length, and so they are in the list
    have hadjacent : ∃ before after, mounts.filter
        (fun m => m.base.utf8ByteSize == a.base.utf8ByteSize) = before ++ a :: b :: after := by
      rw [← filter_mergeSort, List.exists_filter_adjacent]
      exact ⟨before, [], after, hsplit, by simp, by simp [hbase], by simp⟩
    obtain ⟨before, between, after, hlist, -, -, hbetween⟩ :=
      List.exists_filter_adjacent.mp hadjacent
    exact ⟨before, a, between, b, after, hlist, hbase, fun m hm => by simpa using hbetween m hm⟩
  · rintro ⟨before, a, between, b, after, hlist, hbase, hbetween⟩
    have hadjacent : ∃ before after, (mounts.mergeSort atLeastAsLong).filter
        (fun m => m.base.utf8ByteSize == a.base.utf8ByteSize) = before ++ a :: b :: after := by
      rw [filter_mergeSort, List.exists_filter_adjacent]
      exact ⟨before, between, after, hlist, by simp, by simp [hbase], by simpa using hbetween⟩
    obtain ⟨before, between, after, hsplit, -, -, hbetween⟩ :=
      List.exists_filter_adjacent.mp hadjacent
    -- what stands between them in the order of the lengths has their length, so there is nothing
    have hnone : between = [] := by
      refine List.eq_nil_iff_forall_not_mem.mpr fun m hm => hbetween m hm ?_
      rw [hsplit] at hsorted
      have hrest := (List.pairwise_append.mp hsorted).2.1
      have ham := (List.pairwise_cons.mp hrest).1 m (by simp [hm])
      have hmb := (List.pairwise_append.mp (List.pairwise_cons.mp hrest).2).2.2 m hm b (by simp)
      simp only [atLeastAsLong, decide_eq_true_eq] at ham hmb
      rw [hbase] at ham ⊢
      exact beq_iff_eq.mpr (Nat.le_antisymm ham hmb)
    exact ⟨before, a, b, after, by rw [hsplit, hnone]; rfl, hbase⟩

/-! ## Duplicates -/

/-- Mounts meet in some order of the list exactly if two of the list have the same base. -/
theorem exists_perm_meetTwins (mounts : List Mount) :
    (∃ mounts', mounts'.Perm mounts ∧ MeetTwins mounts') ↔
      ¬ mounts.Pairwise fun a b => a.base ≠ b.base := by
  constructor
  · rintro ⟨mounts', hperm, before, a, between, b, after, rfl, hbase, -⟩ hdistinct
    have hdiffer := hperm.symm.pairwise hdistinct fun hne => hne.symm
    have hrest := (List.pairwise_append.mp hdiffer).2.1
    exact (List.pairwise_cons.mp hrest).1 b (by simp) hbase
  · intro hsame
    induction mounts with
    | nil => exact absurd List.Pairwise.nil hsame
    | cons first rest ih =>
      by_cases hfirst : ∃ other ∈ rest, first.base = other.base
      · obtain ⟨other, hother, hbase⟩ := hfirst
        obtain ⟨before, after, rfl⟩ := List.append_of_mem hother
        refine ⟨first :: other :: (before ++ after), ?_, [], first, [], other, before ++ after, rfl,
          hbase, nofun⟩
        exact List.perm_middle.symm.cons first
      · have hrest : ¬ rest.Pairwise fun a b => a.base ≠ b.base := by
          intro hdistinct
          refine hsame (List.pairwise_cons.mpr ⟨fun other hother hbase => ?_, hdistinct⟩)
          exact hfirst ⟨other, hother, hbase⟩
        obtain ⟨mounts', hperm, before, a, between, b, after, rfl, hmeet⟩ := ih hrest
        exact ⟨first :: (before ++ a :: (between ++ b :: after)), hperm.cons first, first :: before,
          a, between, b, after, rfl, hmeet⟩

/-- The default mount is none of the list. -/
def IsStray (mounts : List Mount) (fallback : Option String) : Prop :=
  ∃ mountpoint, fallback = some mountpoint
    ∧ ∀ m ∈ mounts, m.base ≠ MountSettings.normalize mountpoint

/-- A table is made, or it is refused for mounts that meet or for its default mount. -/
theorem ofMounts_cases (mounts : List Mount) (fallback : Option String) :
    ((∃ table, ofMounts mounts fallback = .ok table)
        ∧ ¬ (MeetTwins mounts ∨ IsStray mounts fallback))
      ∨ (∃ detail, ofMounts mounts fallback = .error (.configuration detail))
        ∧ (MeetTwins mounts ∨ IsStray mounts fallback) := by
  have htwins := twin?_mergeSort mounts
  have hmem : ∀ m, m ∈ mounts.mergeSort atLeastAsLong ↔ m ∈ mounts := fun m => List.mem_mergeSort
  unfold ofMounts
  cases htwin : twin? (mounts.mergeSort atLeastAsLong) with
  | some twin =>
    rw [htwin] at htwins
    simp only [htwin]
    exact .inr ⟨⟨_, rfl⟩, .inl (htwins.mp rfl)⟩
  | none =>
    rw [htwin] at htwins
    have hapart : ¬ MeetTwins mounts := fun hmeet => nomatch htwins.mpr hmeet
    simp only [htwin]
    cases fallback with
    | none => exact .inl ⟨⟨_, rfl⟩, not_or.mpr ⟨hapart, fun ⟨_, hnone, _⟩ => nomatch hnone⟩⟩
    | some mountpoint =>
      cases hfound : (mounts.mergeSort atLeastAsLong).find?
          fun m => m.base == MountSettings.normalize mountpoint with
      | some mount =>
        simp only [hfound]
        refine .inl ⟨⟨_, rfl⟩, not_or.mpr ⟨hapart, ?_⟩⟩
        rintro ⟨_, ⟨⟩, hstray⟩
        have hbase : mount.base = MountSettings.normalize mountpoint := by
          simpa using List.find?_some hfound
        exact hstray mount ((hmem mount).mp (List.mem_of_find?_eq_some hfound)) hbase
      | none =>
        simp only [hfound]
        refine .inr ⟨⟨_, rfl⟩, .inr ⟨mountpoint, rfl, fun m hm => ?_⟩⟩
        simpa using List.find?_eq_none.mp hfound m ((hmem m).mpr hm)

/-- Mounts as they stand in settings that pass the check make a table in any order. -/
theorem exists_ofMounts_of_check {s : GatewaySettings} {mounts' : List Mount}
    (hcheck : s.check = .ok ()) (hbases : mounts.map Mount.base = s.bases)
    (hperm : mounts'.Perm mounts) : ∃ table, ofMounts mounts' s.defaultMount = .ok table := by
  have hsound := GatewaySettings.check_eq_ok.mp hcheck
  have hsame := hperm.map Mount.base
  rw [hbases] at hsame
  refine exists_ofMounts (List.pairwise_map.mp (hsame.nodup_iff.mpr hsound.bases)) ?_
  intro mountpoint hdefault
  exact List.mem_map.mp (hsame.mem_iff.mpr (hsound.fallback mountpoint hdefault))

end MountTable

/-- A table is refused, and always for the settings, exactly if mounts with the same base meet in
the list or the default mount is none of the list. Mounts with the same base meet in some order of
the list exactly if there are any, so mounts that pass the check make a table in every order. -/
theorem tables_refused (mounts : List Mount) (fallback : Option String) :
    ((∃ detail, MountTable.ofMounts mounts fallback = .error (.configuration detail)) ↔
      MountTable.MeetTwins mounts ∨ MountTable.IsStray mounts fallback)
    ∧ ((∃ table, MountTable.ofMounts mounts fallback = .ok table) ↔
      ¬ (MountTable.MeetTwins mounts ∨ MountTable.IsStray mounts fallback))
    ∧ ((∃ mounts', mounts'.Perm mounts ∧ MountTable.MeetTwins mounts') ↔
      ¬ mounts.Pairwise fun a b => a.base ≠ b.base)
    ∧ ∀ s : GatewaySettings, s.check = .ok () → mounts.map Mount.base = s.bases →
      ∀ mounts', mounts'.Perm mounts →
        ∃ table, MountTable.ofMounts mounts' s.defaultMount = .ok table := by
  refine ⟨?_, ?_, MountTable.exists_perm_meetTwins mounts, ?_⟩
  · rcases MountTable.ofMounts_cases mounts fallback with ⟨⟨table, htable⟩, hsound⟩ | ⟨herror, hbad⟩
    · refine iff_of_false (fun ⟨detail, herror⟩ => ?_) hsound
      rw [htable] at herror
      cases herror
    · exact iff_of_true herror hbad
  · rcases MountTable.ofMounts_cases mounts fallback with
      ⟨htable, hsound⟩ | ⟨⟨detail, herror⟩, hbad⟩
    · exact iff_of_true htable hsound
    · refine iff_of_false (fun ⟨table, htable⟩ => ?_) (not_not.mpr hbad)
      rw [htable] at herror
      cases herror
  · intro s hcheck hbases mounts' hperm
    exact MountTable.exists_ofMounts_of_check hcheck hbases hperm

/-- A mount that is open, with the pool of a name on the first cluster. -/
def poolMount (base pool : String) : Mount := ⟨base, ⟨0, pool⟩, 1, {}, .ofSeconds 4⟩

/-- A base of another length does not keep mounts apart. -/
theorem tables_refused_across : ∃ detail, MountTable.ofMounts
    [poolMount "/a" "p", poolMount "/long" "q", poolMount "/a" "r"] none =
      .error (.configuration detail) := by
  have hmeet : MountTable.MeetTwins
      [poolMount "/a" "p", poolMount "/long" "q", poolMount "/a" "r"] :=
    ⟨[], poolMount "/a" "p", [poolMount "/long" "q"], poolMount "/a" "r", [], rfl, rfl,
      by decide +kernel⟩
  exact (tables_refused _ none).1.mpr (.inl hmeet)

/-- Two mounts with the same base stay unnoticed if a third one of the same length stands between
them. They are noticed in another order, and by the check of the settings. -/
theorem parted_twins_accepted :
    MountTable.ofMounts [poolMount "/a" "p", poolMount "/b" "q", poolMount "/a" "r"] none =
      .ok ⟨[poolMount "/a" "p", poolMount "/b" "q", poolMount "/a" "r"], none⟩
    ∧ MountTable.ofMounts [poolMount "/a" "p", poolMount "/a" "r", poolMount "/b" "q"] none =
      .error (.configuration "duplicate mountpoint: /a/")
    ∧ GatewaySettings.check { mounts := [⟨"/a", "p", none, none, {}⟩, ⟨"/b", "q", none, none, {}⟩,
        ⟨"/a", "r", none, none, {}⟩] } =
      .error (.configuration "duplicate mountpoint: /a") := by
  refine ⟨?_, ?_, ?_⟩
  · exact MountTable.ofMounts_of_sorted (by decide +kernel) (by decide +kernel)
  · have hsorted : [poolMount "/a" "p", poolMount "/a" "r", poolMount "/b" "q"].Pairwise
        fun a b => MountTable.atLeastAsLong a b = true := by decide +kernel
    have htwin : MountTable.twin? [poolMount "/a" "p", poolMount "/a" "r", poolMount "/b" "q"] =
        some (poolMount "/a" "p") := by decide +kernel
    simp only [MountTable.ofMounts, List.mergeSort_of_pairwise hsorted, htwin]
    rfl
  · decide +kernel

end DavGateway
