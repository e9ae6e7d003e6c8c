import DavGateway.Markup
import DavGateway.Proofs.Text.Split
import Mathlib.Data.List.Infix

/-!
# Markup is read back

A text is split at its tags (`Markup.split?`), each of which is kept with the text that follows it.
What is written from tags and texts without angle brackets is split into the same again, and has
each tag as often as it was written. Text that was escaped has no angle brackets, and is read back.
-/

namespace DavGateway.Markup

/-! ## Escaped text -/

/-- Reads escaped text back. An ampersand that begins none of the five entities fails. -/
def unescapeChars : List Char → Option (List Char)
  | [] => some []
  | '&' :: 'a' :: 'm' :: 'p' :: ';' :: rest => (unescapeChars rest).map ('&' :: ·)
  | '&' :: 'l' :: 't' :: ';' :: rest => (unescapeChars rest).map ('<' :: ·)
  | '&' :: 'g' :: 't' :: ';' :: rest => (unescapeChars rest).map ('>' :: ·)
  | '&' :: 'q' :: 'u' :: 'o' :: 't' :: ';' :: rest => (unescapeChars rest).map ('"' :: ·)
  | '&' :: 'a' :: 'p' :: 'o' :: 's' :: ';' :: rest => (unescapeChars rest).map ('\'' :: ·)
  | c :: rest => if c = '&' then none else (unescapeChars rest).map (c :: ·)

/-- Reads escaped text back. -/
def unescape? (s : String) : Option String := (unescapeChars s.toList).map String.ofList

theorem unescapeChars_cons {c : Char} (h : c ≠ '&') (rest : List Char) :
    unescapeChars (c :: rest) = (unescapeChars rest).map (c :: ·) := by
  rw [unescapeChars.eq_def]
  split <;> simp_all

/-- A character is written as an entity, or it stands for itself. -/
theorem escapeChar_cases (c : Char) :
    c ∈ ['&', '<', '>', '"', '\''] ∨ escapeChar c = [c] ∧ c ∉ ['&', '<', '>', '"', '\''] := by
  by_cases h : c ∈ ['&', '<', '>', '"', '\'']
  · exact .inl h
  · refine .inr ⟨?_, h⟩
    unfold escapeChar
    split <;> simp_all

theorem unescapeChars_escapeChar (c : Char) (rest : List Char) :
    unescapeChars (escapeChar c ++ rest) = (unescapeChars rest).map (c :: ·) := by
  rcases escapeChar_cases c with hentity | ⟨hself, hplain⟩
  · simp only [List.mem_cons, List.not_mem_nil, or_false] at hentity
    rcases hentity with rfl | rfl | rfl | rfl | rfl <;> rfl
  · rw [hself, List.singleton_append, unescapeChars_cons]
    rintro rfl
    exact hplain List.mem_cons_self

theorem unescapeChars_flatMap (s : List Char) : unescapeChars (s.flatMap escapeChar) = some s := by
  induction s with
  | nil => rfl
  | cons c rest ih => rw [List.flatMap_cons, unescapeChars_escapeChar, ih, Option.map_some]

/-- Text that was escaped is read back. -/
theorem unescape?_escape (s : String) : unescape? (escape s) = some s := by
  rw [unescape?, escape, String.toList_ofList, unescapeChars_flatMap, Option.map_some,
    String.ofList_toList]

/-- An angle bracket is written as an entity, and in no entity there is one. -/
theorem not_mem_escape {bracket : Char} (h : bracket = '<' ∨ bracket = '>') (s : String) :
    bracket ∉ (escape s).toList := by
  rw [escape, String.toList_ofList, List.mem_flatMap]
  rintro ⟨c, -, hc⟩
  rcases escapeChar_cases c with hentity | ⟨hself, hplain⟩
  · simp only [List.mem_cons, List.not_mem_nil, or_false] at hentity
    rcases hentity with rfl | rfl | rfl | rfl | rfl <;> rcases h with rfl | rfl <;>
      exact absurd hc (by decide)
  · rw [hself, List.mem_singleton] at hc
    subst hc
    rcases h with rfl | rfl <;> exact hplain (by decide)

/-! ## Tags -/

/-- A tag, and the text that follows it. -/
structure Mark where
  tag : String
  text : String := ""
deriving DecidableEq, Repr

/-- A tag can be told from the text that follows it. -/
structure Mark.IsProper (m : Mark) : Prop where
  opening : '<' ∉ m.tag.toList
  closing : '>' ∉ m.tag.toList
  text : '<' ∉ m.text.toList

instance (m : Mark) : Decidable m.IsProper :=
  decidable_of_iff ('<' ∉ m.tag.toList ∧ '>' ∉ m.tag.toList ∧ '<' ∉ m.text.toList)
    ⟨fun ⟨hopening, hclosing, htext⟩ => ⟨hopening, hclosing, htext⟩,
      fun h => ⟨h.opening, h.closing, h.text⟩⟩

/-- Behind the bracket that opens a tag, no other is opened before the next tag. -/
theorem Mark.IsProper.not_mem_piece {m : Mark} (h : m.IsProper) :
    '<' ∉ m.tag.toList ++ '>' :: m.text.toList := by
  simp [h.opening, h.text]

/-- A tag in its brackets, and the text that follows it. -/
def Mark.written (m : Mark) : String := "<" ++ m.tag ++ ">" ++ m.text

/-- Tags and texts as one text. -/
def written (marks : List Mark) : String := String.join (marks.map Mark.written)

/-- Splits a text at its tags. It has to begin with one, and each of them has to be closed. -/
def split? (s : String) : Option (List Mark) :=
  match Text.fields '<' s.toList with
  | [] :: pieces => pieces.mapM fun piece => (Text.cutAt? '>' piece).map fun (tag, text) =>
      ⟨String.ofList tag, String.ofList text⟩
  | _ => none

variable {marks : List Mark}

@[simp] theorem written_nil : written [] = "" := rfl

theorem written_cons (m : Mark) (marks : List Mark) :
    written (m :: marks) = "<" ++ m.tag ++ ">" ++ m.text ++ written marks := by
  rw [← String.toList_inj]
  simp [written, Mark.written, String.toList_join]

theorem toList_written_cons (m : Mark) (marks : List Mark) : (written (m :: marks)).toList =
    '<' :: (m.tag.toList ++ '>' :: m.text.toList ++ (written marks).toList) := by
  simp [written_cons]

theorem written_append (marks more : List Mark) :
    written (marks ++ more) = written marks ++ written more := by
  rw [← String.toList_inj]
  simp [written, String.toList_join]

theorem fields_written (h : ∀ m ∈ marks, m.IsProper) : Text.fields '<' (written marks).toList =
    [] :: marks.map fun m => m.tag.toList ++ '>' :: m.text.toList := by
  -- each piece is closed by the tag behind it, so the induction is on what stands behind a front
  have hbehind : ∀ (front : List Char), '<' ∉ front →
      Text.fields '<' (front ++ (written marks).toList) =
        front :: marks.map fun m => m.tag.toList ++ '>' :: m.text.toList := by
    induction marks with
    | nil =>
      intro front hfront
      exact (congrArg _ (List.append_nil front)).trans (Text.fields_of_not_mem hfront)
    | cons m marks ih =>
      intro front hfront
      obtain ⟨hm, hmarks⟩ := List.forall_mem_cons.mp h
      rw [toList_written_cons, Text.fields_append hfront, ih hmarks _ hm.not_mem_piece]
      rfl
  exact hbehind [] (by simp)

/-- What was written from tags and texts is split into the same again. -/
theorem split?_written (h : ∀ m ∈ marks, m.IsProper) : split? (written marks) = some marks := by
  rw [split?, fields_written h]
  simp only
  induction marks with
  | nil => rfl
  | cons m marks ih =>
    obtain ⟨hm, hmarks⟩ := List.forall_mem_cons.mp h
    rw [List.map_cons, List.mapM_cons, Text.cutAt?_append hm.closing, ih hmarks]
    simp

/-! ## How often a tag occurs -/

/-- The number of places at which a pattern stands in a text. -/
def occurrences (pattern text : String) : Nat :=
  text.toList.tails.countP fun rest => pattern.toList.isPrefixOf rest

/-- What is no angle bracket begins no tag. -/
theorem countP_tails_append {front : List Char} (h : '<' ∉ front) (name rest : List Char) :
    (front ++ rest).tails.countP (fun rest => ('<' :: name).isPrefixOf rest) =
      rest.tails.countP fun rest => ('<' :: name).isPrefixOf rest := by
  induction front with
  | nil => rfl
  | cons c front ih =>
    obtain ⟨hc, hfront⟩ : '<' ≠ c ∧ '<' ∉ front := by simpa using h
    have hhead : ('<' :: name).isPrefixOf (c :: (front ++ rest)) = false := by
      rw [List.isPrefixOf_cons_cons, beq_eq_false_iff_ne.mpr hc, Bool.false_and]
    rw [List.cons_append, List.tails_cons, List.countP_cons, hhead, ih hfront]
    rfl

/-- In front of the bracket that closes it, a tag has one name only. -/
theorem isPrefixOf_tag {name tag : String} (hname : '>' ∉ name.toList) (htag : '>' ∉ tag.toList)
    (rest : List Char) :
    (name.toList ++ ['>']).isPrefixOf (tag.toList ++ '>' :: rest) = (tag == name) := by
  rw [Bool.eq_iff_iff, List.isPrefixOf_iff_prefix, beq_iff_eq]
  constructor
  · rintro ⟨back, hback⟩
    -- both names end at the first closing bracket
    have hcut := congrArg (Text.cutAt? '>') hback
    rw [List.append_assoc, List.singleton_append, Text.cutAt?_append hname,
      Text.cutAt?_append htag, Option.some.injEq, Prod.mk.injEq] at hcut
    exact (String.toList_inj.mp hcut.1).symm
  · rintro rfl
    exact ⟨rest, by simp⟩

/-- A tag occurs as often as it was written. -/
theorem occurrences_written {name : String} (hname : '>' ∉ name.toList)
    (h : ∀ m ∈ marks, m.IsProper) :
    occurrences ("<" ++ name ++ ">") (written marks) = marks.countP (·.tag == name) := by
  have hpattern : ("<" ++ name ++ ">").toList = '<' :: (name.toList ++ ['>']) := by simp
  rw [occurrences, hpattern]
  induction marks with
  | nil => simp [written]
  | cons m marks ih =>
    obtain ⟨hm, hmarks⟩ := List.forall_mem_cons.mp h
    rw [toList_written_cons, List.tails_cons, List.countP_cons, List.isPrefixOf_cons_cons,
      countP_tails_append hm.not_mem_piece, ih hmarks, List.countP_cons, List.append_assoc, List.cons_append,
      isPrefixOf_tag hname hm.closing, beq_self_eq_true, Bool.true_and]

end DavGateway.Markup
