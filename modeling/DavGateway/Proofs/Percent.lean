import DavGateway.Percent
import Mathlib.Tactic.IntervalCases

/-!
# Paths are read back

What `Percent.encode` writes is ASCII and one character for each of its bytes, so `Percent.decode?`
can take it back byte by byte. Writing distributes over the parts of a path, and a slash stands for
itself; so a path can be written in parts and read as a whole.
-/

namespace DavGateway

namespace Bytes

theorem ofText_append (s t : String) : ofText (s ++ t) = ofText s ++ ofText t := by
  unfold ofText String.toUTF8
  rw [String.toByteArray_append]
  simp

/-- A text is read back from its bytes. -/
theorem toText?_ofText (s : String) : toText? (ofText s) = some s := by
  have hbytes : (⟨(ofText s).toArray⟩ : ByteArray) = s.toByteArray := by simp [ofText]
  have hvalid : s.toByteArray.IsValidUTF8 := s.isValidUTF8
  unfold toText? String.fromUTF8?
  rw [hbytes, dif_pos hvalid]
  rfl

/-- The bytes of a text that is given character by character. -/
theorem ofText_ofList (s : List Char) :
    ofText (String.ofList s) = s.flatMap String.utf8EncodeChar := by
  unfold ofText
  simp [List.utf8Encode]

end Bytes

namespace Percent

variable {b : UInt8} {bytes rest : Bytes}

theorem encode_append (s t : String) : encode (s ++ t) = encode s ++ encode t := by
  unfold encode encodeBytes
  rw [Bytes.ofText_append, List.flatMap_append, String.ofList_append]

theorem encode_slash : encode "/" = "/" := by decide +kernel

/-! ## Single bytes -/

/-- A byte as a character has the byte's number. -/
theorem toNat_ofNat_byte (b : UInt8) : (Char.ofNat b.toNat).toNat = b.toNat := by
  have hlt : b.toNat < 256 := b.toNat_lt
  have hvalid : b.toNat.isValidChar := .inl (by omega)
  unfold Char.ofNat
  rw [dif_pos hvalid]
  rfl

/-- A digit is one byte when it is written, and it is read back. -/
theorem digit?_hexDigit {n : Nat} (h : n < 16) :
    ∃ byte, String.utf8EncodeChar (hexDigit n) = [byte] ∧ digit? byte = some n := by
  interval_cases n <;> exact ⟨_, rfl, by decide⟩

/-- A byte that stands for itself is one character, which is no percent sign. -/
theorem utf8EncodeChar_plain (h : isPlain b = true) :
    String.utf8EncodeChar (Char.ofNat b.toNat) = [b] ∧ b ≠ percent := by
  constructor
  · have hascii : b.toNat < 128 := by
      unfold isPlain at h
      simp only [Bool.and_eq_true, decide_eq_true_eq] at h
      exact UInt8.lt_iff_toNat_lt.mp h.1
    have hcode : (Char.ofNat b.toNat).val.toNat = b.toNat := toNat_ofNat_byte b
    unfold String.utf8EncodeChar
    simp only [hcode]
    rw [if_pos (by omega), UInt8.ofNat_toNat]
  · rintro rfl
    revert h
    decide

/-- A byte that is no percent sign stands for itself. -/
theorem decodeBytes_of_ne (h : b ≠ percent) (rest : Bytes) :
    decodeBytes (b :: rest) = (decodeBytes rest).map (b :: ·) := by
  rw [decodeBytes.eq_def]
  simp only [if_neg h]
  cases decodeBytes rest <;> rfl

/-- What is written for a byte is read back, whatever follows it. -/
theorem decodeBytes_encodeByte (b : UInt8) (rest : Bytes) :
    decodeBytes ((encodeByte b).flatMap String.utf8EncodeChar ++ rest) =
      (decodeBytes rest).map (b :: ·) := by
  unfold encodeByte
  split
  · next hplain =>
    obtain ⟨hbytes, hne⟩ := utf8EncodeChar_plain hplain
    rw [List.flatMap_singleton, hbytes, List.singleton_append, decodeBytes_of_ne hne]
  · have hlt : b.toNat < 256 := b.toNat_lt
    obtain ⟨high, hhigh, hhigh'⟩ := digit?_hexDigit (n := b.toNat / 16) (by omega)
    obtain ⟨low, hlow, hlow'⟩ := digit?_hexDigit (n := b.toNat % 16) (by omega)
    have hvalue : b.toNat / 16 * 16 + b.toNat % 16 = b.toNat := by omega
    have hbytes : ['%', hexDigit (b.toNat / 16), hexDigit (b.toNat % 16)].flatMap
        String.utf8EncodeChar = [percent, high, low] := by
      rw [List.flatMap_cons, List.flatMap_cons, List.flatMap_singleton, hhigh, hlow]
      rfl
    rw [hbytes]
    simp only [List.cons_append, List.nil_append]
    rw [decodeBytes, if_pos rfl]
    simp only [hhigh', hlow', bind, Option.bind, hvalue, UInt8.ofNat_toNat]
    cases decodeBytes rest <;> rfl

/-! ## Whole paths -/

theorem decodeBytes_encodeBytes (bytes : Bytes) :
    decodeBytes ((encodeBytes bytes).flatMap String.utf8EncodeChar) = some bytes := by
  induction bytes with
  | nil => rfl
  | cons b rest ih =>
    have hsplit : encodeBytes (b :: rest) = encodeByte b ++ encodeBytes rest := rfl
    rw [hsplit, List.flatMap_append, decodeBytes_encodeByte, ih, Option.map_some]

/-- Whatever is written as a path is read back. -/
theorem decode?_encode (s : String) : decode? (encode s) = some s := by
  unfold decode? encode
  rw [Bytes.ofText_ofList, decodeBytes_encodeBytes, Option.bind_some, Bytes.toText?_ofText]

end Percent

end DavGateway
