import DavGateway.Text.Blank
import DavGateway.Text.Number
import Mathlib.Tactic.IntervalCases

/-!
# Numbers are read back

A number that is written in decimal is read back from its digits, zeros in front of them included.
-/

namespace DavGateway.Text

variable {n width : Nat}

/-- A digit is one of ten characters. -/
theorem mem_digits {c : Char} (h : c.isDigit) :
    c ∈ ['0', '1', '2', '3', '4', '5', '6', '7', '8', '9'] := by
  have hbounds : 48 ≤ c.toNat ∧ c.toNat ≤ 57 := by
    simpa [Char.isDigit, UInt32.le_iff_toNat_le] using h
  have hchar : c = Char.ofNat c.toNat := (Char.ofNat_toNat c).symm
  rcases hbounds with ⟨hlow, hhigh⟩
  generalize c.toNat = code at hlow hhigh hchar
  subst hchar
  interval_cases code <;> decide

/-- What the ten characters have in common is true of a digit. -/
theorem of_isDigit {p : Char → Bool}
    (hp : ['0', '1', '2', '3', '4', '5', '6', '7', '8', '9'].all p = true) {c : Char}
    (h : c.isDigit) : p c = true :=
  List.all_eq_true.mp hp c (mem_digits h)

theorem isBlank_of_isDigit {c : Char} (h : c.isDigit) : isBlank c = false := by
  have hdigit := of_isDigit (p := fun c => !isBlank c) (by decide) h
  simpa using hdigit

theorem isDigit_of_mem_toDigits {c : Char} (h : c ∈ Nat.toDigits 10 n) : c.isDigit = true :=
  Nat.isDigit_of_mem_toDigits (by decide) (by decide) h

theorem digitsValue_eq (s : List Char) : digitsValue s = Nat.ofDigitChars 10 s 0 := by
  rw [Nat.ofDigitChars_eq_foldl]
  unfold digitsValue digitValue
  simp only [Nat.mul_comm 10]

theorem digitsValue_toDigits (n : Nat) : digitsValue (Nat.toDigits 10 n) = n := by
  rw [digitsValue_eq, Nat.ofDigitChars_ten_toDigits]

/-! ## Words for numbers -/

/-- The word is a 64-bit number: one or more digits, zeros in front included, with a plus sign in
front of them or without. -/
def IsNumber (word : List Char) (n : Nat) : Prop :=
  ∃ digits, (word = digits ∨ word = '+' :: digits) ∧ digits ≠ [] ∧ (∀ c ∈ digits, c.isDigit)
    ∧ n = Nat.ofDigitChars 10 digits 0 ∧ n < wordLimit

theorem readDigits?_eq_some_iff {s : List Char} : readDigits? s = some n ↔
    s ≠ [] ∧ (∀ c ∈ s, c.isDigit) ∧ n = Nat.ofDigitChars 10 s 0 := by
  unfold readDigits?
  rw [digitsValue_eq]
  simp only [Option.ite_none_right_eq_some, Bool.and_eq_true, Bool.not_eq_true', List.all_eq_true,
    List.isEmpty_eq_false_iff, Option.some.injEq, and_assoc, eq_comm (a := n)]

theorem readDigits?_toDigits (n : Nat) : readDigits? (Nat.toDigits 10 n) = some n := by
  rw [readDigits?_eq_some_iff]
  exact ⟨by simp, fun _ => isDigit_of_mem_toDigits, Nat.ofDigitChars_ten_toDigits.symm⟩

theorem readWord?_eq_some_iff {word : List Char} : readWord? word = some n ↔ IsNumber word n := by
  have hread : ∀ digits : List Char, (readDigits? digits).filter (· < wordLimit) = some n ↔
      digits ≠ [] ∧ (∀ c ∈ digits, c.isDigit) ∧ n = Nat.ofDigitChars 10 digits 0
        ∧ n < wordLimit := by
    intro digits
    rw [Option.filter_eq_some_iff, readDigits?_eq_some_iff, decide_eq_true_eq]
    simp only [and_assoc]
  unfold readWord? IsNumber
  split
  · next rest =>
    -- a digit is no plus sign
    rw [hread]
    constructor
    · intro h
      exact ⟨rest, .inr rfl, h⟩
    · rintro ⟨digits, hword | hword, hne, hdigits, hvalue⟩
      · have hplus : '+'.isDigit = true := hdigits _ (hword ▸ List.mem_cons_self)
        exact absurd hplus (by decide)
      · cases hword
        exact ⟨hne, hdigits, hvalue⟩
  · next hunsigned =>
    rw [hread]
    constructor
    · intro h
      exact ⟨word, .inl rfl, h⟩
    · rintro ⟨digits, hword | hword, h⟩
      · rwa [hword]
      · exact absurd hword (hunsigned digits)

theorem readWord?_toDigits (h : n < wordLimit) : readWord? (Nat.toDigits 10 n) = some n := by
  rw [readWord?_eq_some_iff]
  exact ⟨_, .inl rfl, by simp, fun _ => isDigit_of_mem_toDigits,
    Nat.ofDigitChars_ten_toDigits.symm, h⟩

/-! ## A fixed width -/

theorem toList_padded (width n : Nat) : (padded width n).toList =
    List.replicate (width - (Nat.toDigits 10 n).length) '0' ++ Nat.toDigits 10 n :=
  String.toList_ofList

theorem isDigit_of_mem_padded {c : Char} (h : c ∈ (padded width n).toList) : c.isDigit = true := by
  rw [toList_padded, List.mem_append] at h
  rcases h with hzero | hdigit
  · rw [List.eq_of_mem_replicate hzero]
    rfl
  · exact isDigit_of_mem_toDigits hdigit

/-- A number that fits has the given width. -/
theorem length_padded (hwidth : 0 < width) (h : n < 10 ^ width) :
    (padded width n).toList.length = width := by
  have hfits : (Nat.toDigits 10 n).length ≤ width :=
    (Nat.length_toDigits_le_iff (by decide) hwidth).mpr h
  rw [toList_padded, List.length_append, List.length_replicate]
  omega

/-- Zeros in front count nothing. -/
theorem digitsValue_padded (width n : Nat) : digitsValue (padded width n).toList = n := by
  have hzeros : ∀ count,
      (List.replicate count '0').foldl (fun n c => n * 10 + digitValue c) 0 = 0 := by
    intro count
    induction count with
    | zero => rfl
    | succ count ih => exact ih
  rw [toList_padded, digitsValue, List.foldl_append, hzeros]
  exact digitsValue_toDigits n

end DavGateway.Text
