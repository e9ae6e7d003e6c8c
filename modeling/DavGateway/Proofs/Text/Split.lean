import DavGateway.Text.Split
import Mathlib.Data.List.Basic

/-!
# Texts that are split

Where a separator stands between two parts and not in the first of them, a text is split there. A
text that is written character by character is split where it was, if the separator stands for
itself and for nothing else (`fields_flatMap`).
-/

namespace DavGateway.Text

variable {separator : Char} {front : List Char}

theorem fields_of_not_mem (h : separator ∉ front) : fields separator front = [front] := by
  induction front with
  | nil => rfl
  | cons c front ih =>
    obtain ⟨hc, hfront⟩ : separator ≠ c ∧ separator ∉ front := by simpa using h
    rw [fields, if_neg (Ne.symm hc), ih hfront]

theorem fields_append (h : separator ∉ front) (back : List Char) :
    fields separator (front ++ separator :: back) = front :: fields separator back := by
  induction front with
  | nil => rw [List.nil_append, fields, if_pos rfl]
  | cons c front ih =>
    obtain ⟨hc, hfront⟩ : separator ≠ c ∧ separator ∉ front := by simpa using h
    rw [List.cons_append, fields, if_neg (Ne.symm hc), ih hfront]

theorem fields_ne_nil (s : List Char) : fields separator s ≠ [] := by
  cases s with
  | nil => exact List.cons_ne_nil _ _
  | cons c rest =>
    rw [fields]
    split
    · exact List.cons_ne_nil _ _
    · split
      · exact List.cons_ne_nil _ _
      · exact List.cons_ne_nil _ _

/-- What stands in front of a text without a separator belongs to the first part. -/
theorem fields_front (h : separator ∉ front) {s first : List Char} {others : List (List Char)}
    (hs : fields separator s = first :: others) :
    fields separator (front ++ s) = (front ++ first) :: others := by
  induction front with
  | nil => exact hs
  | cons c front ih =>
    obtain ⟨hc, hfront⟩ : separator ≠ c ∧ separator ∉ front := by simpa using h
    rw [List.cons_append, fields, if_neg (Ne.symm hc), ih hfront]
    rfl

theorem fields_flatMap {f : Char → List Char} (hsame : f separator = [separator])
    (hother : ∀ c, c ≠ separator → separator ∉ f c) (s : List Char) :
    fields separator (s.flatMap f) = (fields separator s).map fun part => part.flatMap f := by
  induction s with
  | nil => rfl
  | cons c rest ih =>
    rw [List.flatMap_cons]
    by_cases hc : c = separator
    · rw [hc, hsame, List.singleton_append, fields, if_pos rfl, fields, if_pos rfl, ih]
      rfl
    · have hne : fields separator rest ≠ [] := fields_ne_nil rest
      rcases List.exists_cons_of_ne_nil hne with ⟨first, others, hrest⟩
      rw [hrest, List.map_cons] at ih
      rw [fields_front (hother c hc) ih, fields, if_neg hc, hrest, List.map_cons, List.flatMap_cons]

/-- A text that is put together with separators between its parts is split into them. -/
theorem fields_intercalate {texts : List (List Char)} (hne : texts ≠ [])
    (h : ∀ text ∈ texts, separator ∉ text) :
    fields separator (List.intercalate [separator] texts) = texts := by
  induction texts with
  | nil => exact absurd rfl hne
  | cons text rest ih =>
    have htext := h text List.mem_cons_self
    cases rest with
    | nil => simpa using fields_of_not_mem htext
    | cons second others =>
      rw [List.intercalate_cons_cons, List.append_assoc, List.singleton_append, fields_append htext,
        ih (List.cons_ne_nil _ _) fun part hpart => h part (List.mem_cons_of_mem _ hpart)]

theorem cutAt?_append (h : separator ∉ front) (back : List Char) :
    cutAt? separator (front ++ separator :: back) = some (front, back) := by
  induction front with
  | nil => rw [List.nil_append, cutAt?, if_pos rfl]
  | cons c front ih =>
    obtain ⟨hc, hfront⟩ : separator ≠ c ∧ separator ∉ front := by simpa using h
    rw [List.cons_append, cutAt?, if_neg (Ne.symm hc), ih hfront]
    rfl

theorem cutAt?_of_not_mem (h : separator ∉ front) : cutAt? separator front = none := by
  induction front with
  | nil => rfl
  | cons c front ih =>
    obtain ⟨hc, hfront⟩ : separator ≠ c ∧ separator ∉ front := by simpa using h
    rw [cutAt?, if_neg (Ne.symm hc), ih hfront]
    rfl

/-- A text is cut at its first separator. -/
theorem cutAt?_eq_some_iff {s back : List Char} :
    cutAt? separator s = some (front, back) ↔ s = front ++ separator :: back ∧ separator ∉ front := by
  constructor
  · intro hcut
    by_cases hmem : separator ∈ s
    · rcases List.eq_append_cons_of_mem hmem with ⟨front', back', rfl, hfront'⟩
      rw [cutAt?_append hfront', Option.some.injEq, Prod.mk.injEq] at hcut
      rcases hcut with ⟨rfl, rfl⟩
      exact ⟨rfl, hfront'⟩
    · rw [cutAt?_of_not_mem hmem] at hcut
      cases hcut
  · rintro ⟨rfl, hfront⟩
    exact cutAt?_append hfront back

end DavGateway.Text
