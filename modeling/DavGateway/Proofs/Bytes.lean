import DavGateway.Bytes
import Mathlib.Data.List.Basic

/-!
# Bytes laid over bytes

What data that is laid over other bytes leaves, byte by byte (`Bytes.IsOverlay`), and which bytes a
slice has (`Bytes.IsRange`).
-/

namespace DavGateway.Bytes

variable {bytes data : Bytes} {start count i : Nat}

/-- The bytes once `data` has been laid over `old` from `start` on: they reach to the end of both,
the data stands at its place, what it does not cover stays, and a gap is filled with zeros. -/
structure IsOverlay (old : Bytes) (start : Nat) (data bytes : Bytes) : Prop where
  length : bytes.length = max old.length (start + data.length)
  laid : ∀ i, start ≤ i → i < start + data.length → bytes[i]? = data[i - start]?
  kept : ∀ i, i < old.length → i < start ∨ start + data.length ≤ i → bytes[i]? = old[i]?
  filled : ∀ i, i < bytes.length → old.length ≤ i → i < start ∨ start + data.length ≤ i →
    bytes[i]? = some 0

/-- The bytes of `bytes` from `first` on and before `last`. -/
structure IsRange (bytes : Bytes) (first last : Nat) (part : Bytes) : Prop where
  length : part.length = last - first
  byte : ∀ i, i < part.length → part[i]? = bytes[first + i]?

/-! ## Overlays -/

/-- In front of the data stand the bytes that were there, and zeros up to its start. -/
theorem length_front (bytes : Bytes) (start : Nat) :
    (bytes.take start ++ List.replicate (start - bytes.length) 0).length = start := by
  rw [List.length_append, List.length_take, List.length_replicate]
  omega

theorem getElem?_overlay_front (h : i < start) :
    (bytes.overlay start data)[i]? = if i < bytes.length then bytes[i]? else some 0 := by
  have hfront := length_front bytes start
  unfold overlay
  rw [List.append_assoc, List.getElem?_append_left (by omega), List.getElem?_append,
    List.length_take]
  split
  · rw [if_pos (by omega), List.getElem?_take_of_lt h]
  · rw [if_neg (by omega), List.getElem?_replicate_of_lt (by omega)]

theorem getElem?_overlay_data (hlow : start ≤ i) (hhigh : i < start + data.length) :
    (bytes.overlay start data)[i]? = data[i - start]? := by
  have hfront := length_front bytes start
  unfold overlay
  rw [List.append_assoc, List.getElem?_append_right (by omega), hfront,
    List.getElem?_append_left (by omega)]

theorem getElem?_overlay_back (h : start + data.length ≤ i) :
    (bytes.overlay start data)[i]? = bytes[i]? := by
  have hfront := length_front bytes start
  unfold overlay
  rw [List.getElem?_append_right (by rw [List.length_append]; omega), List.length_append, hfront,
    List.getElem?_drop, Nat.add_sub_cancel' h]

theorem isOverlay_overlay (old : Bytes) (start : Nat) (data : Bytes) :
    old.IsOverlay start data (old.overlay start data) := by
  have hlength := length_overlay old start data
  constructor
  · exact hlength
  · intro i hlow hhigh
    exact getElem?_overlay_data hlow hhigh
  · intro i hi houtside
    rcases houtside with hfront | hback
    · rw [getElem?_overlay_front hfront, if_pos hi]
    · exact getElem?_overlay_back hback
  · intro i hi hold houtside
    -- behind the data there is nothing that was not there before
    have hfront : i < start := by omega
    rw [getElem?_overlay_front hfront, if_neg (by omega)]

/-- A byte is one of the data, or one that was there, or fills a gap. -/
theorem getElem?_overlay {b : UInt8} (h : (bytes.overlay start data)[i]? = some b) :
    b = 0 ∨ bytes[i]? = some b ∨ start ≤ i ∧ data[i - start]? = some b := by
  rcases Nat.lt_or_ge i start with hfront | hlow
  · rw [getElem?_overlay_front hfront] at h
    split at h
    · exact .inr (.inl h)
    · left
      exact (Option.some.inj h).symm
  · rcases Nat.lt_or_ge i (start + data.length) with hhigh | hback
    · rw [getElem?_overlay_data hlow hhigh] at h
      exact .inr (.inr ⟨hlow, h⟩)
    · rw [getElem?_overlay_back hback] at h
      exact .inr (.inl h)

/-- Data that is laid over bytes right behind their end is appended. -/
theorem overlay_length (bytes data : Bytes) :
    bytes.overlay bytes.length data = bytes ++ data := by
  simp [overlay]

/-- Data that is laid over nothing is all there is. -/
theorem nil_overlay (data : Bytes) : Bytes.overlay [] 0 data = data := overlay_length [] data

/-- Nothing is written over nothing. -/
theorem overlay_nil (h : start ≤ bytes.length) : bytes.overlay start [] = bytes := by
  have hgap : start - bytes.length = 0 := by omega
  simp [overlay, hgap]

/-- Data that is laid right behind other data is laid together with it. -/
theorem overlay_overlay (bytes : Bytes) (start : Nat) (data more : Bytes) :
    (bytes.overlay start data).overlay (start + data.length) more =
      bytes.overlay start (data ++ more) := by
  have hfront : (bytes.take start ++ List.replicate (start - bytes.length) 0 ++ data).length =
      start + data.length := by
    rw [List.length_append, length_front]
  have hlength := length_overlay bytes start data
  unfold overlay at hlength ⊢
  rw [List.take_left' hfront, hlength, Nat.sub_eq_zero_of_le (Nat.le_max_right _ _),
    List.length_append, ← Nat.add_assoc, ← List.drop_drop, List.drop_left' hfront, List.drop_drop,
    List.replicate_zero, List.append_nil, List.append_assoc _ data more]

/-- The bytes in front of the data stay, if there are so many. -/
theorem take_overlay (h : start ≤ bytes.length) :
    (bytes.overlay start data).take (start + data.length) = bytes.take start ++ data := by
  have hlength : (bytes.take start ++ data).length = start + data.length := by
    rw [List.length_append, List.length_take_of_le h]
  unfold overlay
  rw [Nat.sub_eq_zero_of_le h, List.replicate_zero, List.append_nil]
  exact List.take_left' hlength

/-! ## Slices -/

theorem isRange_slice (bytes : Bytes) (start count : Nat) :
    bytes.IsRange start (min (start + count) bytes.length) (bytes.slice start count) := by
  have hlength : (bytes.slice start count).length = min (start + count) bytes.length - start := by
    rw [slice, List.length_take, List.length_drop]
    omega
  constructor
  · exact hlength
  · intro i hi
    rw [slice, List.getElem?_take_of_lt (by omega), List.getElem?_drop]

end DavGateway.Bytes
