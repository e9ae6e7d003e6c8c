import DavGateway.Http.Request
import DavGateway.Proofs.Percent
import DavGateway.Proofs.Text.Number
import Mathlib.Data.List.Basic

/-!
# Text in header fields

A printable character of ASCII is one byte and stands for itself in a header field, so that a text
of such characters is read as it was written.
-/

namespace DavGateway

variable {text : List Char}

/-- A character of ASCII that is no control character. -/
def Text.IsPrintable (c : Char) : Prop := 32 ≤ c.toNat ∧ c.toNat ≤ 126

instance (c : Char) : Decidable (Text.IsPrintable c) := inferInstanceAs (Decidable (_ ∧ _))

theorem Text.isPrintable_of_isDigit {c : Char} (h : c.isDigit) : IsPrintable c :=
  of_decide_eq_true (of_isDigit (p := fun c => IsPrintable c) (by decide) h)

/-- Of a given text it can be evaluated whether it is printable. -/
theorem Text.isPrintable_of_all (h : (text.all fun c => IsPrintable c) = true) :
    ∀ c ∈ text, IsPrintable c :=
  fun c hc => of_decide_eq_true (List.all_eq_true.mp h c hc)

theorem Text.IsPrintable.utf8EncodeChar {c : Char} (h : IsPrintable c) :
    String.utf8EncodeChar c = [UInt8.ofNat c.toNat] := by
  have hascii : c.val.toNat ≤ 127 := Nat.le_trans h.2 (by decide)
  unfold String.utf8EncodeChar
  simp only
  rw [if_pos hascii]
  rfl

theorem Text.IsPrintable.isVisible {c : Char} (h : IsPrintable c) :
    Http.Request.isVisible (UInt8.ofNat c.toNat) = true := by
  have hbyte : (UInt8.ofNat c.toNat).toNat = c.toNat :=
    UInt8.toNat_ofNat_of_lt' (Nat.lt_of_le_of_lt h.2 (by decide))
  have hlow : 0x20 ≤ UInt8.ofNat c.toNat := by
    rw [UInt8.le_iff_toNat_le, hbyte]
    exact h.1
  have hhigh : UInt8.ofNat c.toNat < 0x7F := by
    rw [UInt8.lt_iff_toNat_lt, hbyte]
    exact Nat.lt_succ_of_le h.2
  simp [Http.Request.isVisible, hlow, hhigh]

theorem Text.IsPrintable.ofNat {c : Char} (h : IsPrintable c) :
    Char.ofNat (UInt8.ofNat c.toNat).toNat = c := by
  have hbyte : (UInt8.ofNat c.toNat).toNat = c.toNat :=
    UInt8.toNat_ofNat_of_lt' (Nat.lt_of_le_of_lt h.2 (by decide))
  rw [hbyte, Char.ofNat_toNat]

theorem Bytes.ofText_printable (h : ∀ c ∈ text, Text.IsPrintable c) :
    Bytes.ofText (String.ofList text) = text.map fun c => UInt8.ofNat c.toNat := by
  rw [ofText_ofList, List.map_eq_flatMap]
  exact List.flatMap_congr fun c hc => (h c hc).utf8EncodeChar

/-- Printable text is read from a header field as it was written. -/
theorem Http.Request.visible?_printable (h : ∀ c ∈ text, Text.IsPrintable c) :
    visible? (Bytes.ofText (String.ofList text)) = some text := by
  have hall : (text.map fun c => UInt8.ofNat c.toNat).all isVisible = true := by
    rw [List.all_map, List.all_eq_true]
    exact fun c hc => (h c hc).isVisible
  have hback : (text.map fun c => UInt8.ofNat c.toNat).map (fun b => Char.ofNat b.toNat) =
      text := by
    rw [List.map_map]
    exact (List.map_congr_left fun c hc => (h c hc).ofNat).trans (List.map_id text)
  rw [Bytes.ofText_printable h, visible?, if_pos hall, hback]

end DavGateway
