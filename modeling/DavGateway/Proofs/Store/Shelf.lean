import DavGateway.Store.Shelf
import Mathlib.Data.List.Sort

/-!
# Laws of shelves

What a look-up finds after a change, and how look-ups and entries belong together: the keys of a
shelf ascend, so no key has two entries.
-/

namespace DavGateway.Shelf

variable {α : Type} {s : Shelf α} {key other : String} {value : α}

/-- What a look-up finds in a list of entries with one put at its place. -/
theorem find?_placeEntry (entries : List (String × α)) :
    (placeEntry key value entries).find? (fun entry => entry.1 == other) =
      if other = key then some (key, value) else entries.find? fun entry => entry.1 == other := by
  induction entries with
  | nil =>
    by_cases heq : other = key
    · simp [placeEntry, heq]
    · simp [placeEntry, heq, Ne.symm heq]
  | cons entry rest ih =>
    unfold placeEntry
    split
    · by_cases heq : other = key
      · simp [heq]
      · simp [heq, Ne.symm heq]
    · split
      · -- the entry is replaced, and it was found under no other key
        next hsame =>
        by_cases heq : other = key
        · simp [heq]
        · simp [heq, Ne.symm heq, ← hsame]
      · next hne =>
        rw [List.find?_cons, List.find?_cons, ih]
        by_cases heq : other = key
        · have hentry : (entry.1 == other) = false := by simpa [heq] using Ne.symm hne
          rw [hentry]
        · rw [if_neg heq, if_neg heq]

@[simp] theorem get?_set : (s.set key value).get? other =
    if other = key then some value else s.get? other := by
  unfold get? set
  rw [find?_placeEntry]
  split <;> rfl

theorem get?_erase : (s.erase key).get? other = if other = key then none else s.get? other := by
  unfold get? erase
  rw [List.find?_filter]
  by_cases heq : other = key
  · subst heq
    simp
  · rw [if_neg heq]
    congr 2
    funext entry
    by_cases hentry : entry.1 = other
    · simp [hentry, heq]
    · simp [hentry]

theorem get?_update (f : α → α) : (s.update key f).get? other =
    if other = key then (s.get? key).map f else s.get? other := by
  unfold update
  cases hget : s.get? key with
  | none =>
    by_cases heq : other = key
    · rw [if_pos heq, heq, hget]
      rfl
    · rw [if_neg heq]
  | some old => rw [get?_set]; rfl

theorem contains_eq_true : s.contains key = true ↔ ∃ value, s.get? key = some value :=
  Option.isSome_iff_exists

/-- An entry is what a look-up under its key finds. -/
theorem mem_entries : (key, value) ∈ s.entries ↔ s.get? key = some value := by
  have hascending := s.ascending
  unfold get?
  generalize s.entries = entries at hascending
  induction entries with
  | nil => simp
  | cons entry rest ih =>
    rcases List.pairwise_cons.mp hascending with ⟨hfirst, hrest⟩
    have ih := ih hrest
    rw [List.mem_cons, List.find?_cons]
    by_cases heq : entry.1 = key
    · -- the keys that follow are larger
      have hlater : rest.find? (fun entry => entry.1 == key) = none := by
        rw [List.find?_eq_none]
        intro later hmem
        have hlt := hfirst later hmem
        have hne : later.1 ≠ key := by
          intro hsame
          rw [heq, hsame] at hlt
          exact String.lt_irrefl _ hlt
        simpa using hne
      rw [hlater] at ih
      subst heq
      simp [ih, Prod.ext_iff, eq_comm]
    · have hentry : (entry.1 == key) = false := by simpa using heq
      have hne : (key, value) ≠ entry := fun h => heq (h ▸ rfl)
      rw [hentry]
      simpa only [hne, false_or] using ih

/-- Shelves with the same look-ups are the same: their entries are, and both have them in order. -/
theorem ext_get? {s t : Shelf α} (h : ∀ key, s.get? key = t.get? key) : s = t := by
  have hmem : ∀ entry : String × α, entry ∈ s.entries ↔ entry ∈ t.entries := by
    rintro ⟨key, value⟩
    rw [mem_entries, mem_entries, h]
  have : Std.Irrefl fun a b : String × α => a.1 < b.1 := ⟨fun a => String.lt_irrefl a.1⟩
  have : Std.Antisymm fun a b : String × α => a.1 < b.1 :=
    ⟨fun a b hlt hgt => absurd (String.lt_trans hlt hgt) (String.lt_irrefl a.1)⟩
  have hentries : s.entries = t.entries := s.ascending.eq_of_mem_iff t.ascending hmem
  cases s
  cases t
  cases hentries
  rfl

/-- Of two values that are put under one key the second stays. -/
theorem set_set (s : Shelf α) (key : String) (value value' : α) :
    (s.set key value).set key value' = s.set key value' := by
  apply ext_get?
  intro other
  rw [get?_set, get?_set, get?_set]
  split
  · rfl
  · rfl

/-- A value that is put where it is already changes nothing. -/
theorem set_of_get? (h : s.get? key = some value) : s.set key value = s := by
  apply ext_get?
  intro other
  rw [get?_set]
  split
  · next heq => rw [heq, h]
  · rfl

/-- The keys ascend. -/
theorem keys_pairwise : s.keys.Pairwise (· < ·) := List.pairwise_map.mpr s.ascending

theorem mem_keys : key ∈ s.keys ↔ ∃ value, s.get? key = some value := by
  unfold keys
  rw [List.mem_map]
  constructor
  · rintro ⟨⟨key', value⟩, hmem, rfl⟩
    exact ⟨value, mem_entries.mp hmem⟩
  · rintro ⟨value, hget⟩
    exact ⟨(key, value), mem_entries.mpr hget, rfl⟩

end DavGateway.Shelf
