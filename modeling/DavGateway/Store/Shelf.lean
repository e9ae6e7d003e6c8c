/-!
# Shelves

A shelf keeps values under text keys, in ascending order of the keys. The order is a part of the
type, so that two shelves with the same look-ups are equal.
-/

namespace DavGateway

/-- Are the keys of a list of entries in ascending order? -/
def Ascending {α : Type} (entries : List (String × α)) : Prop :=
  entries.Pairwise fun a b => a.1 < b.1

/-- Puts an entry at its place, over the one that has its key. -/
def placeEntry {α : Type} (key : String) (value : α) : List (String × α) → List (String × α)
  | [] => [(key, value)]
  | entry :: rest =>
    if key < entry.1 then (key, value) :: entry :: rest
    else if key = entry.1 then (key, value) :: rest
    else entry :: placeEntry key value rest

theorem mem_placeEntry {α : Type} {key : String} {value : α} {entries : List (String × α)}
    {p : String × α} (h : p ∈ placeEntry key value entries) : p = (key, value) ∨ p ∈ entries := by
  induction entries with
  | nil => simpa [placeEntry] using h
  | cons entry rest ih =>
    unfold placeEntry at h
    split at h
    · simpa using h
    · split at h
      · rcases List.mem_cons.mp h with h | h
        · exact .inl h
        · exact .inr (List.mem_cons_of_mem _ h)
      · rcases List.mem_cons.mp h with h | h
        · exact .inr (h ▸ List.mem_cons_self)
        · exact (ih h).imp_right (List.mem_cons_of_mem _)

theorem ascending_placeEntry {α : Type} {key : String} {value : α} {entries : List (String × α)}
    (h : Ascending entries) : Ascending (placeEntry key value entries) := by
  induction entries with
  | nil => simp [placeEntry, Ascending]
  | cons entry rest ih =>
    have hrest : Ascending rest := (List.pairwise_cons.mp h).2
    have hfirst := (List.pairwise_cons.mp h).1
    unfold placeEntry
    split
    · next hlt =>
      refine List.pairwise_cons.mpr ⟨fun p hp => ?_, h⟩
      rcases List.mem_cons.mp hp with rfl | hp
      · exact hlt
      · exact String.lt_trans hlt (hfirst p hp)
    · next hge =>
      split
      · next heq => exact List.pairwise_cons.mpr ⟨fun p hp => heq ▸ hfirst p hp, hrest⟩
      · next hne =>
        refine List.pairwise_cons.mpr ⟨fun p hp => ?_, ih hrest⟩
        rcases mem_placeEntry hp with rfl | hp
        · -- the keys differ and the new one is not the smaller one
          rcases Decidable.em (entry.1 < key) with hlt | hnlt
          · exact hlt
          · exact absurd (String.le_antisymm (String.not_lt.mp hnlt) (String.not_lt.mp hge)) hne
        · exact hfirst p hp

/-- Values under text keys, in ascending order. -/
structure Shelf (α : Type) where
  entries : List (String × α) := []
  ascending : Ascending entries := by exact List.Pairwise.nil

namespace Shelf

variable {α : Type}

instance : Inhabited (Shelf α) := ⟨{}⟩

instance [DecidableEq α] : DecidableEq (Shelf α) := fun a b =>
  decidable_of_iff (a.entries = b.entries)
    ⟨fun h => by cases a; cases b; cases h; rfl, fun h => h ▸ rfl⟩

/-- The value under a key. -/
def get? (s : Shelf α) (key : String) : Option α :=
  (s.entries.find? fun entry => entry.1 == key).map (·.2)

/-- Puts a value under a key. -/
def set (s : Shelf α) (key : String) (value : α) : Shelf α where
  entries := placeEntry key value s.entries
  ascending := ascending_placeEntry s.ascending

/-- Takes a key and its value away. -/
def erase (s : Shelf α) (key : String) : Shelf α where
  entries := s.entries.filter fun entry => entry.1 != key
  ascending := s.ascending.filter _

/-- The keys, in ascending order. -/
def keys (s : Shelf α) : List String := s.entries.map (·.1)

/-- Is there a value under the key? -/
def contains (s : Shelf α) (key : String) : Bool := (s.get? key).isSome

/-- Changes the value under a key, if there is one. -/
def update (s : Shelf α) (key : String) (f : α → α) : Shelf α :=
  match s.get? key with
  | some value => s.set key (f value)
  | none => s

end Shelf

end DavGateway
