import DavGateway.Proofs.Percent
import DavGateway.Proofs.Text.Split

/-!
# How paths are written and read

The grammar of percent-encoded paths. What is written has unreserved characters, slashes and escapes
with upper-case digits only (`IsWritten`), and its slashes stand where they stood before. What is
read splits into bytes that stand for themselves and escapes (`Spells`); a text that does not split
so has a percent sign that no two digits follow (`BreaksOff`). Both sides come together in
`paths_written_and_read`.
-/

namespace DavGateway

namespace Bytes

/-- Of the bytes of a character only one that is the character itself is below 128. -/
theorem eq_of_mem_utf8EncodeChar {b : UInt8} {c : Char} (h : b ∈ String.utf8EncodeChar c)
    (hascii : b.toNat < 128) : b.toNat = c.toNat := by
  have hcode : c.val.toNat = c.toNat := rfl
  unfold String.utf8EncodeChar at h
  simp only [hcode] at h
  split at h
  · rw [List.mem_singleton] at h
    rw [h, UInt8.toNat_ofNat']
    omega
  · -- all bytes of a longer form are 128 or more
    exfalso
    split at h
    · simp only [List.mem_cons, List.not_mem_nil, or_false] at h
      rcases h with rfl | rfl <;> rw [UInt8.toNat_ofNat'] at hascii <;> omega
    · split at h
      · simp only [List.mem_cons, List.not_mem_nil, or_false] at h
        rcases h with rfl | rfl | rfl <;> rw [UInt8.toNat_ofNat'] at hascii <;> omega
      · simp only [List.mem_cons, List.not_mem_nil, or_false] at h
        rcases h with rfl | rfl | rfl | rfl <;> rw [UInt8.toNat_ofNat'] at hascii <;> omega

/-- Bytes are the text whose form they are, and no other bytes are a text. -/
theorem toText?_eq_some_iff {bytes : Bytes} {s : String} :
    toText? bytes = some s ↔ bytes = ofText s := by
  constructor
  · intro h
    unfold toText? String.fromUTF8? at h
    split at h
    · rw [← Option.some.inj h]
      simp [ofText, String.fromUTF8]
    · cases h
  · rintro rfl
    exact toText?_ofText s

end Bytes

namespace Percent

variable {b high low : UInt8} {raw rest front values : Bytes} {h l value : Nat}

/-! ## What is read -/

/-- The byte is a hexadecimal digit of this value, in either case. -/
def IsDigit (b : UInt8) (value : Nat) : Prop :=
  value < 10 ∧ b.toNat = 48 + value
    ∨ 10 ≤ value ∧ value < 16 ∧ (b.toNat = 55 + value ∨ b.toNat = 87 + value)

/-- The raw bytes split into bytes other than the percent sign and escapes of two digits, which have
these values. -/
inductive Spells : Bytes → Bytes → Prop
  | nil : Spells [] []
  | plain {b : UInt8} {raw values : Bytes} (hb : b ≠ percent) (hraw : Spells raw values) :
    Spells (b :: raw) (b :: values)
  | escape {high low : UInt8} {h l : Nat} {raw values : Bytes} (hhigh : IsDigit high h)
    (hlow : IsDigit low l) (hraw : Spells raw values) :
    Spells (percent :: high :: low :: raw) (UInt8.ofNat (h * 16 + l) :: values)

/-- What follows a percent sign is too short for an escape, or does not begin with two digits. -/
def IsBroken (rest : Bytes) : Prop :=
  rest.length < 2 ∨ ∃ high low tail, rest = high :: low :: tail
    ∧ ((∀ value, ¬ IsDigit high value) ∨ ∀ value, ¬ IsDigit low value)

/-- The raw bytes split up to a percent sign that no two digits follow. -/
def BreaksOff (raw : Bytes) : Prop :=
  ∃ front values rest, raw = front ++ percent :: rest ∧ Spells front values ∧ IsBroken rest

theorem digit?_eq_some_iff : digit? b = some value ↔ IsDigit b value := by
  have hcode : (Char.ofNat b.toNat).val.toNat = b.toNat := toNat_ofNat_byte b
  have hzero : '0'.val.toNat = 48 := rfl
  have hnine : '9'.val.toNat = 57 := rfl
  have hlowerFirst : 'a'.val.toNat = 97 := rfl
  have hlowerLast : 'f'.val.toNat = 102 := rfl
  have hupperFirst : 'A'.val.toNat = 65 := rfl
  have hupperLast : 'F'.val.toNat = 70 := rfl
  unfold digit? IsDigit Text.hexValue? Text.digitValue Char.isDigit Char.toNat
  simp only [Bool.and_eq_true, decide_eq_true_eq, UInt32.le_iff_toNat_le, Char.le_def, ge_iff_le,
    hcode, hzero, hnine, hlowerFirst, hlowerLast, hupperFirst, hupperLast]
  split
  · rw [Option.some.injEq]
    omega
  · split
    · rw [Option.some.injEq]
      omega
    · split
      · rw [Option.some.injEq]
        omega
      · constructor
        · nofun
        · omega

theorem digit?_eq_none_iff : digit? b = none ↔ ∀ value, ¬ IsDigit b value := by
  rw [Option.eq_none_iff_forall_ne_some]
  simp only [ne_eq, digit?_eq_some_iff]

theorem decodeBytes_escape (high low : UInt8) (rest : Bytes) :
    decodeBytes (percent :: high :: low :: rest) = (digit? high).bind fun h =>
      (digit? low).bind fun l => (decodeBytes rest).map (UInt8.ofNat (h * 16 + l) :: ·) := by
  rw [decodeBytes, if_pos rfl]
  cases digit? high with
  | none => rfl
  | some h =>
    cases digit? low with
    | none => rfl
    | some l => cases decodeBytes rest <;> rfl

/-- Bytes that split are read as their values, whatever follows them. -/
theorem Spells.decodeBytes_append (hraw : Spells raw values) (rest : Bytes) :
    decodeBytes (raw ++ rest) = (decodeBytes rest).map (values ++ ·) := by
  induction hraw with
  | nil => simp
  | plain hb hraw ih =>
    rw [List.cons_append, decodeBytes_of_ne hb, ih, Option.map_map]
    rfl
  | escape hhigh hlow hraw ih =>
    rw [List.cons_append, List.cons_append, List.cons_append, decodeBytes_escape,
      digit?_eq_some_iff.mpr hhigh, digit?_eq_some_iff.mpr hlow, Option.bind_some,
      Option.bind_some, ih, Option.map_map]
    rfl

theorem Spells.decodeBytes_eq (hraw : Spells raw values) : decodeBytes raw = some values := by
  have happend := hraw.decodeBytes_append []
  rw [List.append_nil] at happend
  rw [happend, decodeBytes, Option.map_some, List.append_nil]

theorem IsBroken.decodeBytes_eq (h : IsBroken rest) : decodeBytes (percent :: rest) = none := by
  rcases h with hshort | ⟨high, low, tail, rfl, hdigits⟩
  · rcases rest with _ | ⟨first, _ | ⟨second, tail⟩⟩
    · rfl
    · rfl
    · simp only [List.length_cons] at hshort
      omega
  · rw [decodeBytes_escape]
    rcases hdigits with hhigh | hlow
    · rw [digit?_eq_none_iff.mpr hhigh]
      rfl
    · rw [digit?_eq_none_iff.mpr hlow]
      cases digit? high <;> rfl

theorem BreaksOff.decodeBytes_eq (h : BreaksOff raw) : decodeBytes raw = none := by
  rcases h with ⟨front, values, rest, rfl, hfront, hrest⟩
  rw [hfront.decodeBytes_append, hrest.decodeBytes_eq]
  rfl

theorem BreaksOff.plain (hb : b ≠ percent) (h : BreaksOff raw) : BreaksOff (b :: raw) := by
  rcases h with ⟨front, values, rest, rfl, hfront, hrest⟩
  exact ⟨b :: front, b :: values, rest, rfl, .plain hb hfront, hrest⟩

theorem BreaksOff.escape (hhigh : IsDigit high h) (hlow : IsDigit low l) (hraw : BreaksOff raw) :
    BreaksOff (percent :: high :: low :: raw) := by
  rcases hraw with ⟨front, values, rest, rfl, hfront, hrest⟩
  exact ⟨percent :: high :: low :: front, _, rest, rfl, .escape hhigh hlow hfront, hrest⟩

/-- Bytes split, or they break off somewhere. -/
theorem exists_spells_or_breaksOff (raw : Bytes) : (∃ values, Spells raw values) ∨ BreaksOff raw := by
  induction raw using decodeBytes.induct with
  | case1 => exact .inl ⟨[], .nil⟩
  | case2 high low rest ih =>
    cases hhigh : digit? high with
    | none =>
      exact .inr ⟨[], [], _, rfl, .nil, .inr ⟨high, low, rest, rfl,
        .inl (digit?_eq_none_iff.mp hhigh)⟩⟩
    | some h =>
      cases hlow : digit? low with
      | none =>
        exact .inr ⟨[], [], _, rfl, .nil, .inr ⟨high, low, rest, rfl,
          .inr (digit?_eq_none_iff.mp hlow)⟩⟩
      | some l =>
        have hhigh := digit?_eq_some_iff.mp hhigh
        have hlow := digit?_eq_some_iff.mp hlow
        rcases ih with ⟨values, hrest⟩ | hrest
        · exact .inl ⟨_, .escape hhigh hlow hrest⟩
        · exact .inr (hrest.escape hhigh hlow)
  | case3 rest hshort =>
    have hlength : rest.length < 2 := by
      match rest, hshort with
      | [], _ => exact Nat.zero_lt_two
      | [_], _ => exact Nat.one_lt_two
      | high :: low :: tail, hshort => exact absurd rfl (hshort high low tail)
    exact .inr ⟨[], [], rest, rfl, .nil, .inl hlength⟩
  | case4 b rest hb ih =>
    rcases ih with ⟨values, hrest⟩ | hrest
    · exact .inl ⟨_, .plain hb hrest⟩
    · exact .inr (hrest.plain hb)

theorem decodeBytes_eq_some_iff : decodeBytes raw = some values ↔ Spells raw values := by
  constructor
  · intro hread
    rcases exists_spells_or_breaksOff raw with ⟨values', hspells⟩ | hbreaks
    · rw [hspells.decodeBytes_eq, Option.some.injEq] at hread
      rwa [← hread]
    · rw [hbreaks.decodeBytes_eq] at hread
      cases hread
  · exact Spells.decodeBytes_eq

/-- A path is read as the text whose bytes it spells. -/
theorem decode?_eq_some_iff {raw s : String} :
    decode? raw = some s ↔ Spells (Bytes.ofText raw) (Bytes.ofText s) := by
  unfold decode?
  rw [Option.bind_eq_some_iff]
  constructor
  · rintro ⟨values, hread, htext⟩
    rw [← Bytes.toText?_eq_some_iff.mp htext]
    exact decodeBytes_eq_some_iff.mp hread
  · intro hspells
    exact ⟨_, hspells.decodeBytes_eq, Bytes.toText?_ofText s⟩

/-- A path is not read if it breaks off, or if the bytes it spells are no text. -/
theorem decode?_eq_none_iff {raw : String} : decode? raw = none ↔ BreaksOff (Bytes.ofText raw)
    ∨ ∃ values, Spells (Bytes.ofText raw) values ∧ ∀ s, values ≠ Bytes.ofText s := by
  unfold decode?
  rw [Option.bind_eq_none_iff]
  constructor
  · intro hread
    rcases exists_spells_or_breaksOff (Bytes.ofText raw) with ⟨values, hspells⟩ | hbreaks
    · right
      refine ⟨values, hspells, ?_⟩
      intro s hs
      have hnone := hread values hspells.decodeBytes_eq
      rw [hs, Bytes.toText?_ofText] at hnone
      cases hnone
    · exact .inl hbreaks
  · intro h values hvalues
    rcases h with hbreaks | ⟨values', hspells, hno⟩
    · rw [hbreaks.decodeBytes_eq] at hvalues
      cases hvalues
    · rw [hspells.decodeBytes_eq, Option.some.injEq] at hvalues
      rw [← hvalues, Option.eq_none_iff_forall_ne_some]
      intro s hs
      exact hno s (Bytes.toText?_eq_some_iff.mp hs)

/-! ## What is written -/

/-- Letters and digits of ASCII, and the marks that stand for themselves. -/
def IsUnreserved (c : Char) : Prop :=
  'a' ≤ c ∧ c ≤ 'z' ∨ 'A' ≤ c ∧ c ≤ 'Z' ∨ '0' ≤ c ∧ c ≤ '9' ∨ c ∈ ['-', '_', '.', '~', '/']

/-- Hexadecimal digits in upper case. -/
def IsUpperHex (c : Char) : Prop := '0' ≤ c ∧ c ≤ '9' ∨ 'A' ≤ c ∧ c ≤ 'F'

instance (c : Char) : Decidable (IsUpperHex c) := inferInstanceAs (Decidable (_ ∨ _))

/-- Text of unreserved characters and of escapes with two upper-case digits. -/
inductive IsWritten : List Char → Prop
  | nil : IsWritten []
  | plain {c : Char} {rest : List Char} (hc : IsUnreserved c) (hrest : IsWritten rest) :
    IsWritten (c :: rest)
  | escape {high low : Char} {rest : List Char} (hhigh : IsUpperHex high) (hlow : IsUpperHex low)
    (hrest : IsWritten rest) : IsWritten ('%' :: high :: low :: rest)

theorem isUnreserved_of_isPlain (h : isPlain b = true) : IsUnreserved (Char.ofNat b.toNat) := by
  unfold isPlain at h
  rw [Bool.and_eq_true, Bool.or_eq_true, List.contains_iff_mem] at h
  rcases h with ⟨-, halphanum | hmark⟩
  · rcases Bool.or_eq_true_iff.mp halphanum with halpha | hdigit
    · rcases Bool.or_eq_true_iff.mp halpha with hupper | hlower
      · exact .inr (.inl (of_decide_eq_true hupper))
      · rcases Bool.and_eq_true_iff.mp hlower with ⟨hlow, hhigh⟩
        exact .inl ⟨of_decide_eq_true hlow, of_decide_eq_true hhigh⟩
    · rcases Bool.and_eq_true_iff.mp hdigit with ⟨hlow, hhigh⟩
      exact .inr (.inr (.inl ⟨of_decide_eq_true hlow, of_decide_eq_true hhigh⟩))
  · exact .inr (.inr (.inr hmark))

/-- The digits that are written are in upper case, and none of them is a slash. -/
theorem isUpperHex_hexDigit {n : Nat} (h : n < 16) :
    IsUpperHex (hexDigit n) ∧ hexDigit n ≠ '/' := by
  interval_cases n <;> decide

theorem isWritten_encodeByte (b : UInt8) {rest : List Char} (hrest : IsWritten rest) :
    IsWritten (encodeByte b ++ rest) := by
  have hlt : b.toNat < 256 := b.toNat_lt
  unfold encodeByte
  split
  · next hplain => exact .plain (isUnreserved_of_isPlain hplain) hrest
  · apply IsWritten.escape
    · exact (isUpperHex_hexDigit (by omega)).1
    · exact (isUpperHex_hexDigit (by omega)).1
    · exact hrest

theorem isWritten_encodeBytes (bytes : Bytes) : IsWritten (encodeBytes bytes) := by
  induction bytes with
  | nil => exact .nil
  | cons b rest ih => exact isWritten_encodeByte b ih

/-! ## Slashes -/

/-- Only a slash is written with a slash. -/
theorem eq_of_slash_mem_encodeByte (h : '/' ∈ encodeByte b) : b.toNat = '/'.toNat := by
  have hlt : b.toNat < 256 := b.toNat_lt
  unfold encodeByte at h
  split at h
  · rw [List.mem_singleton.mp h, toNat_ofNat_byte]
  · exfalso
    simp only [List.mem_cons, List.not_mem_nil, or_false] at h
    rcases h with hpercent | hhigh | hlow
    · exact absurd hpercent (by decide)
    · exact (isUpperHex_hexDigit (by omega)).2 hhigh.symm
    · exact (isUpperHex_hexDigit (by omega)).2 hlow.symm

theorem slash_not_mem_encode {c : Char} (hc : c ≠ '/') :
    '/' ∉ encodeBytes (String.utf8EncodeChar c) := by
  intro hmem
  rcases List.mem_flatMap.mp hmem with ⟨b, hb, hslash⟩
  have hbyte := eq_of_slash_mem_encodeByte hslash
  have hchar := Bytes.eq_of_mem_utf8EncodeChar hb (by rw [hbyte]; decide)
  exact hc (Char.toNat_inj.mp (hchar.symm.trans hbyte))

/-- A text is written character by character. -/
theorem toList_encode (s : List Char) : (encode (String.ofList s)).toList =
    s.flatMap fun c => encodeBytes (String.utf8EncodeChar c) := by
  unfold encode encodeBytes
  rw [String.toList_ofList, Bytes.ofText_ofList, List.flatMap_assoc]

/-- The slashes of a text are kept, and none are added: it has the same parts between them, each
written for itself. -/
theorem fields_encode (s : String) : Text.fields '/' (encode s).toList =
    (Text.fields '/' s.toList).map fun part => (encode (String.ofList part)).toList := by
  have hslash : encodeBytes (String.utf8EncodeChar '/') = ['/'] := by decide +kernel
  have hwhole := toList_encode s.toList
  rw [String.ofList_toList] at hwhole
  rw [hwhole, Text.fields_flatMap hslash fun c hc => slash_not_mem_encode hc]
  simp only [toList_encode]

end Percent

/-- What is written as a path has unreserved characters and upper-case escapes only, keeps the
slashes of the text, is put together as the text is, and is read back. What is read as a text are the
paths that split into bytes other than the percent sign and escapes with digits in either case, whose
values are the bytes of the text. All other paths are refused: those with a percent sign that is cut
short or has a wrong digit behind it, and those whose values are no text. -/
theorem paths_written_and_read :
    (∀ s, Percent.IsWritten (Percent.encode s).toList)
    ∧ (∀ s, Text.fields '/' (Percent.encode s).toList =
      (Text.fields '/' s.toList).map fun part => (Percent.encode (String.ofList part)).toList)
    ∧ (∀ s t, Percent.encode (s ++ t) = Percent.encode s ++ Percent.encode t)
    ∧ (∀ s, Percent.decode? (Percent.encode s) = some s)
    ∧ (∀ raw s, Percent.decode? raw = some s ↔
      Percent.Spells (Bytes.ofText raw) (Bytes.ofText s))
    ∧ (∀ raw, Percent.decode? raw = none ↔ Percent.BreaksOff (Bytes.ofText raw)
      ∨ ∃ values, Percent.Spells (Bytes.ofText raw) values ∧ ∀ s, values ≠ Bytes.ofText s) := by
  refine ⟨?_, Percent.fields_encode, Percent.encode_append, Percent.decode?_encode, ?_, ?_⟩
  · intro s
    unfold Percent.encode
    rw [String.toList_ofList]
    exact Percent.isWritten_encodeBytes _
  · intro raw s
    exact Percent.decode?_eq_some_iff
  · intro raw
    exact Percent.decode?_eq_none_iff

end DavGateway
