import DavGateway.Store.FileName
import DavGateway.Store.Names

/-!
# File names stand for their keys

The name of a key is one component of a path (`FileName.IsPlain`), and the key is read back from it;
so no two keys share a file. A percent sign in a name is always the start of an escape, which is why
the reader meets every escape as it was written.
-/

namespace DavGateway

/-- The keys that are accepted are those that are not empty and have no NUL. -/
theorem Names.checkKey_eq_ok {key : String} :
    checkKey key = .ok () ↔ key ≠ "" ∧ '\x00' ∉ key.toList := by
  unfold checkKey
  split
  · next hempty => simp [hempty]
  · next hempty =>
    split
    · next hnul => simp [hnul]
    · next hnul => simp [hempty, hnul]

namespace FileName

variable {c : Char} {key other : String}

/-- The name is a single component of a path that leads to a child, and to no hidden one. -/
structure IsPlain (name : String) : Prop where
  ne_empty : name ≠ ""
  noSlash : '/' ∉ name.toList
  noNul : '\x00' ∉ name.toList
  noDot : name.toList.head? ≠ some '.'

/-- A plain name does not lead back up. -/
theorem IsPlain.ne_up {name : String} (h : IsPlain name) : name ≠ ".." := by
  rintro rfl
  exact h.noDot rfl

/-! ## Reading back -/

theorem escapeChar_of_ne (hpercent : c ≠ '%') (hslash : c ≠ '/') : escapeChar c = [c] := by
  unfold escapeChar
  split
  · contradiction
  · contradiction
  · rfl

theorem unescape?_cons (h : c ≠ '%') (rest : List Char) :
    unescape? (c :: rest) = (unescape? rest).map (c :: ·) := by
  rw [unescape?.eq_def]
  split
  · contradiction
  · next heq =>
    cases heq
    contradiction
  · next heq =>
    cases heq
    contradiction
  · next heq =>
    cases heq
    contradiction
  · next heq =>
    cases heq
    rw [if_neg h]

/-- What is written for one character is read as this character. -/
theorem unescape?_escapeChar (c : Char) (rest : List Char) :
    unescape? (escapeChar c ++ rest) = (unescape? rest).map (c :: ·) := by
  by_cases hpercent : c = '%'
  · rw [hpercent]
    rfl
  · by_cases hslash : c = '/'
    · rw [hslash]
      rfl
    · rw [escapeChar_of_ne hpercent hslash]
      exact unescape?_cons hpercent rest

theorem unescape?_flatMap (s : List Char) : unescape? (s.flatMap escapeChar) = some s := by
  induction s with
  | nil => rfl
  | cons c s ih =>
    rw [List.flatMap_cons, unescape?_escapeChar, ih]
    rfl

theorem unescape?_encodeChars (s : List Char) : unescape? (encodeChars s) = some s := by
  unfold encodeChars
  split
  · next rest =>
    show (unescape? (rest.flatMap escapeChar)).map ('.' :: ·) = _
    rw [unescape?_flatMap]
    rfl
  · exact unescape?_flatMap s

/-! ## What a name looks like -/

theorem mem_escapeChar {d : Char} (h : d ∈ escapeChar c) : d ≠ '/' ∧ (d = '\x00' → c = '\x00') := by
  by_cases hpercent : c = '%'
  · subst hpercent
    have hd : d = '%' ∨ d = '2' ∨ d = '5' := by simpa [escapeChar] using h
    rcases hd with rfl | rfl | rfl <;> decide
  · by_cases hslash : c = '/'
    · subst hslash
      have hd : d = '%' ∨ d = '2' ∨ d = 'F' := by simpa [escapeChar] using h
      rcases hd with rfl | rfl | rfl <;> decide
    · rw [escapeChar_of_ne hpercent hslash, List.mem_singleton] at h
      rw [h]
      exact ⟨hslash, id⟩

theorem mem_encodeChars {d : Char} {s : List Char} (h : d ∈ encodeChars s) :
    d ≠ '/' ∧ (d = '\x00' → '\x00' ∈ s) := by
  have hplain : ∀ t : List Char, d ∈ t.flatMap escapeChar →
      d ≠ '/' ∧ (d = '\x00' → '\x00' ∈ t) := by
    intro t ht
    obtain ⟨c, hc, hd⟩ := List.mem_flatMap.mp ht
    obtain ⟨hslash, hnul⟩ := mem_escapeChar hd
    exact ⟨hslash, fun hzero => hnul hzero ▸ hc⟩
  unfold encodeChars at h
  split at h
  · next rest =>
    have hd : d ∈ ['%', '2', 'E'] ∨ d ∈ rest.flatMap escapeChar := List.mem_append.mp h
    rcases hd with hd | hd
    · have hletters : d = '%' ∨ d = '2' ∨ d = 'E' := by simpa using hd
      rcases hletters with rfl | rfl | rfl <;> exact ⟨by decide, nofun⟩
    · exact ⟨(hplain rest hd).1, fun hzero => List.mem_cons_of_mem _ ((hplain rest hd).2 hzero)⟩
  · exact hplain s h

theorem head?_encodeChars (s : List Char) : (encodeChars s).head? ≠ some '.' := by
  unfold encodeChars
  split
  · simp
  · next hdot =>
    cases s with
    | nil => simp
    | cons c rest =>
      have hc : c ≠ '.' := fun hc => hdot rest (by rw [hc])
      by_cases hpercent : c = '%'
      · simp [hpercent, escapeChar]
      · by_cases hslash : c = '/'
        · simp [hslash, escapeChar]
        · simp [escapeChar_of_ne hpercent hslash, hc]

theorem encodeChars_ne_nil {s : List Char} (h : s ≠ []) : encodeChars s ≠ [] := by
  intro hnil
  have hback := unescape?_encodeChars s
  rw [hnil, unescape?, Option.some.injEq] at hback
  exact h hback.symm

/-! ## Names and keys -/

/-- Of a name that does not begin with a dot the escapes are read back. -/
theorem decodeChars?_eq_some {s k : List Char} :
    decodeChars? s = some k ↔ s.head? ≠ some '.' ∧ unescape? s = some k := by
  unfold decodeChars?
  split
  · simp
  · next hdot =>
    have hhead : s.head? ≠ some '.' := by
      intro hhead
      obtain ⟨rest, rfl⟩ := List.head?_eq_some_iff.mp hhead
      exact hdot rest rfl
    simp [hhead]

/-- A key is read back from its name. -/
@[simp] theorem decode?_encode (key : String) : decode? (encode key) = some key := by
  have hchars : decodeChars? (encodeChars key.toList) = some key.toList :=
    decodeChars?_eq_some.mpr ⟨head?_encodeChars key.toList, unescape?_encodeChars key.toList⟩
  unfold decode? encode
  rw [String.toList_ofList, hchars, Option.map_some, String.ofList_toList]

theorem encode_injective (h : encode key = encode other) : key = other := by
  have hback := decode?_encode key
  rw [h, decode?_encode, Option.some.injEq] at hback
  exact hback.symm

/-- The name of a key that is accepted is plain. -/
theorem encode_isPlain (h : Names.checkKey key = .ok ()) : IsPlain (encode key) := by
  obtain ⟨hempty, hnul⟩ := Names.checkKey_eq_ok.mp h
  constructor
  · intro hnone
    have hchars : encodeChars key.toList = [] := by simpa [encode] using hnone
    exact encodeChars_ne_nil (by simpa using hempty) hchars
  · intro hslash
    rw [encode, String.toList_ofList] at hslash
    exact (mem_encodeChars hslash).1 rfl
  · intro hzero
    rw [encode, String.toList_ofList] at hzero
    exact hnul ((mem_encodeChars hzero).2 rfl)
  · rw [encode, String.toList_ofList]
    exact head?_encodeChars key.toList

end FileName

end DavGateway
