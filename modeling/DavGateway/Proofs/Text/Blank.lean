import DavGateway.Text.Blank
import Mathlib.Data.List.TakeWhile

/-!
# Trimming

Blanks around a text do not matter to `Text.trim`, and a text is trimmed to nothing exactly if it has
nothing but blanks.
-/

namespace DavGateway.Text

variable {s core text before after : List Char}

/-- The text has nothing but blanks. -/
def IsBlank (s : List Char) : Prop := ∀ c ∈ s, isBlank c = true

instance (s : List Char) : Decidable (IsBlank s) :=
  decidable_of_iff (s.all isBlank = true) List.all_eq_true

/-- The text is `core` with blanks around it. -/
def Surrounds (core text : List Char) : Prop :=
  ∃ before after, IsBlank before ∧ IsBlank after ∧ text = before ++ core ++ after

theorem Surrounds.refl (s : List Char) : Surrounds s s :=
  ⟨[], [], by simp [IsBlank], by simp [IsBlank], by simp⟩

theorem toLower_of_isBlank {c : Char} (h : isBlank c = true) : c.toLower = c := by
  unfold Char.toLower
  rw [dif_neg]
  rintro ⟨hlow, hhigh⟩
  have hcode : 65 ≤ c.toNat ∧ c.toNat ≤ 90 := ⟨hlow, hhigh⟩
  simp only [isBlank, Bool.or_eq_true, Bool.and_eq_true, decide_eq_true_eq, beq_iff_eq] at h
  omega

theorem trimStart_of_isBlank (h : IsBlank s) : trimStart s = [] :=
  List.dropWhile_eq_nil_iff.mpr h

theorem trimStart_append (h : IsBlank before) (s : List Char) :
    trimStart (before ++ s) = trimStart s := List.dropWhile_append_of_pos h

theorem trimEnd_append (h : IsBlank after) (s : List Char) : trimEnd (s ++ after) = trimEnd s := by
  unfold trimEnd
  rw [List.reverse_append, List.dropWhile_append_of_pos fun c hc => h c (List.mem_reverse.mp hc)]

theorem exists_trimStart (s : List Char) : ∃ before, IsBlank before ∧ s = before ++ trimStart s :=
  ⟨s.takeWhile isBlank, fun _ hc => List.mem_takeWhile_imp hc, List.takeWhile_append_dropWhile.symm⟩

theorem exists_trimEnd (s : List Char) : ∃ after, IsBlank after ∧ s = trimEnd s ++ after := by
  refine ⟨(s.reverse.takeWhile isBlank).reverse, ?_, ?_⟩
  · intro c hc
    exact List.mem_takeWhile_imp (List.mem_reverse.mp hc)
  · unfold trimEnd
    rw [← List.reverse_append, List.takeWhile_append_dropWhile, List.reverse_reverse]

theorem trim_append (h : IsBlank after) (s : List Char) : trim (s ++ after) = trim s := by
  unfold trim
  rw [trimStart, List.dropWhile_append]
  split
  · next hempty =>
    -- the text is blank as well
    have hs : trimStart s = [] := List.isEmpty_iff.mp hempty
    rw [hs]
    exact congrArg trimEnd (trimStart_of_isBlank h)
  · exact trimEnd_append h _

theorem trim_blank_append (h : IsBlank before) (s : List Char) : trim (before ++ s) = trim s := by
  unfold trim
  rw [trimStart_append h]

theorem trim_of_surrounds (h : Surrounds core text) : trim text = trim core := by
  rcases h with ⟨before, after, hbefore, hafter, rfl⟩
  rw [trim_append hafter, trim_blank_append hbefore]

theorem not_mem_of_isBlank {c : Char} (hc : isBlank c = false) (h : IsBlank s) : c ∉ s := by
  intro hmem
  rw [h c hmem] at hc
  cases hc

theorem not_mem_of_surrounds {c : Char} (hc : isBlank c = false) (h : Surrounds core text)
    (hcore : c ∉ core) : c ∉ text := by
  rcases h with ⟨before, after, hbefore, hafter, rfl⟩
  intro hmem
  rcases List.mem_append.mp hmem with hmem | hmem
  · rcases List.mem_append.mp hmem with hmem | hmem
    · exact not_mem_of_isBlank hc hbefore hmem
    · exact hcore hmem
  · exact not_mem_of_isBlank hc hafter hmem

theorem trim_trimStart (s : List Char) : trim (trimStart s) = trim s := by
  rcases exists_trimStart s with ⟨before, hbefore, hs⟩
  calc trim (trimStart s) = trim (before ++ trimStart s) := (trim_blank_append hbefore _).symm
    _ = trim s := by rw [← hs]

theorem trim_trimEnd (s : List Char) : trim (trimEnd s) = trim s := by
  rcases exists_trimEnd s with ⟨after, hafter, hs⟩
  calc trim (trimEnd s) = trim (trimEnd s ++ after) := (trim_append hafter _).symm
    _ = trim s := by rw [← hs]

theorem surrounds_trim (s : List Char) : Surrounds (trim s) s := by
  rcases exists_trimStart s with ⟨before, hbefore, hs⟩
  rcases exists_trimEnd (trimStart s) with ⟨after, hafter, hcore⟩
  refine ⟨before, after, hbefore, hafter, ?_⟩
  rw [trim, List.append_assoc, ← hcore, ← hs]

theorem trim_eq_nil_iff : trim s = [] ↔ IsBlank s := by
  constructor
  · intro h
    rcases surrounds_trim s with ⟨before, after, hbefore, hafter, hs⟩
    rw [hs, h, List.append_nil]
    intro c hc
    rcases List.mem_append.mp hc with hc | hc
    · exact hbefore c hc
    · exact hafter c hc
  · intro h
    unfold trim
    rw [trimStart_of_isBlank h]
    rfl

/-- A text without blanks is trimmed already. -/
theorem trim_of_no_blank (h : ∀ c ∈ s, isBlank c = false) : trim s = s := by
  have hstart : trimStart s = s := by
    rw [trimStart, List.dropWhile_eq_self_iff]
    intro hlength
    simp [h]
  have hend : s.reverse.dropWhile isBlank = s.reverse := by
    rw [List.dropWhile_eq_self_iff]
    intro hlength
    simp [h]
  rw [trim, hstart, trimEnd, hend, List.reverse_reverse]

/-- What is trimmed is split at a character that is no blank as the whole is. -/
theorem trim_append_cons {c : Char} (hc : isBlank c = false) (front back : List Char) :
    trim (front ++ c :: back) = trimStart front ++ c :: trimEnd back := by
  have hstart : trimStart (front ++ c :: back) = trimStart front ++ c :: back := by
    rw [trimStart, List.dropWhile_append, List.dropWhile_cons, hc]
    split
    · next hempty =>
      have hfront : trimStart front = [] := List.isEmpty_iff.mp hempty
      rw [hfront]
      rfl
    · rfl
  have hend : ∀ front : List Char, trimEnd (front ++ c :: back) = front ++ c :: trimEnd back := by
    intro front
    unfold trimEnd
    rw [List.reverse_append, List.reverse_cons, List.append_assoc, List.dropWhile_append,
      List.singleton_append, List.dropWhile_cons, hc]
    split
    · next hempty =>
      rw [List.isEmpty_iff.mp hempty]
      simp
    · simp
  rw [trim, hstart, hend]

end DavGateway.Text
