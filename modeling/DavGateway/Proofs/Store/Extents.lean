import DavGateway.Proofs.Bytes
import DavGateway.Proofs.Store.FileName
import DavGateway.Proofs.Store.Memory

/-!
# Where objects in memory end

A write lays its data over the bytes of one object and leaves every other object alone, a read gives
the part of the bytes that it asks for, and data can be written in parts (`objects_keep_bytes`). All
this holds as long as memory for the end of the data can be asked for. A write whose end is beyond
that breaks off, and by then it has made its object (`writes_reach_limit`).
-/

namespace DavGateway

namespace MemoryPool

variable {p : MemoryPool} {now : Int} {key other : String} {data : Bytes} {offset : Nat}

/-- The pool `p'` is the pool `p` with an object put under a key. -/
structure Puts (p p' : MemoryPool) (key : String) (object : MemoryObject) : Prop where
  there : p'.objects.get? key = some object
  others : ∀ other, other ≠ key → p'.objects.get? other = p.objects.get? other

theorem puts_set (p : MemoryPool) (key : String) (object : MemoryObject) :
    p.Puts ⟨p.objects.set key object⟩ key object := by
  constructor
  · rw [Shelf.get?_set, if_pos rfl]
  · intro other hother
    rw [Shelf.get?_set, if_neg hother]

/-! ## Writes that fit -/

theorem perform_write_of_small (now : Int) (hkey : Names.checkKey key = .ok ())
    (hsmall : offset + data.length < Text.signedLimit) :
    p.perform now (.write key data offset) = (.returned (.ok .done),
      ⟨p.objects.set key ⟨((p.content? key).getD []).overlay offset data, now⟩⟩) := by
  simp only [perform, write_of_small hkey hsmall]
  rfl

/-- Data that is written in two parts, the second one right behind the first, is written whole. -/
theorem perform_write_append (now now' : Int) {first second : Bytes}
    (hkey : Names.checkKey key = .ok ())
    (hsmall : offset + (first ++ second).length < Text.signedLimit) :
    (p.perform now (.write key first offset)).2.perform now'
        (.write key second (offset + first.length)) =
      p.perform now' (.write key (first ++ second) offset) := by
  have hboth : offset + first.length + second.length < Text.signedLimit := by
    rw [List.length_append] at hsmall
    omega
  have hfirst : offset + first.length < Text.signedLimit := by omega
  rw [perform_write_of_small now hkey hfirst, perform_write_of_small now' hkey hboth,
    perform_write_of_small now' hkey hsmall, content?_set, Function.update_self, Option.getD_some,
    Shelf.set_set, Bytes.overlay_overlay]

/-! ## Reads -/

theorem perform_read_of_content (now : Int) {bytes : Bytes} (h : p.content? key = some bytes)
    (length offset : Nat) :
    p.perform now (.read key length offset) =
      (.returned (.ok (.data (bytes.slice offset length))), p) := by
  rcases Option.map_eq_some_iff.mp h with ⟨object, hobject, rfl⟩
  simp only [perform, read, hobject]
  rfl

/-! ## Writes that break off -/

/-- A write ends as it should: it is carried out, or it is refused and the pool stays as it was. -/
def EndsWell (p : MemoryPool) (now : Int) (key : String) (data : Bytes) (offset : Nat) : Prop :=
  (p.write now key data offset).1 = .returned (.ok ())
    ∨ ∃ detail, p.write now key data offset = (.returned (.error (.invalidRequest detail)), p)

/-- A key that is not valid is refused before anything else is looked at. -/
theorem write_of_refused (now : Int) (data : Bytes) (offset : Nat) {failure : Failure}
    (hkey : Names.checkKey key = .error failure) :
    ∃ detail, p.write now key data offset = (.returned (.error (.invalidRequest detail)), p) := by
  have hdetail : ∃ detail, failure = .invalidRequest detail := by
    unfold Names.checkKey at hkey
    split at hkey
    · cases hkey
      exact ⟨_, rfl⟩
    · split at hkey
      · cases hkey
        exact ⟨_, rfl⟩
      · cases hkey
  rcases hdetail with ⟨detail, rfl⟩
  refine ⟨detail, ?_⟩
  unfold write
  rw [hkey]

theorem endsWell_iff (p : MemoryPool) (now : Int) (key : String) (data : Bytes) (offset : Nat) :
    p.EndsWell now key data offset ↔
      (Names.checkKey key = .ok () → offset + data.length < Text.signedLimit) := by
  constructor
  · intro hends hkey
    apply Nat.lt_of_not_le
    intro hlarge
    unfold EndsWell at hends
    rw [write_of_large now hkey hlarge] at hends
    rcases hends with hok | ⟨detail, hrefused⟩
    · cases hok
    · cases hrefused
  · intro hfits
    cases hkey : Names.checkKey key with
    | error failure => exact .inr (write_of_refused now data offset hkey)
    | ok =>
      left
      rw [write_of_small hkey (hfits hkey)]

/-- What is put under a key leaves the pool as it was exactly if it was there. -/
theorem put_back_eq_iff : (⟨p.objects.set key ((p.objects.get? key).getD {})⟩ : MemoryPool) = p ↔
    ∃ object, p.objects.get? key = some object := by
  constructor
  · intro hsame
    have hthere := (p.puts_set key ((p.objects.get? key).getD {})).there
    rw [hsame] at hthere
    exact ⟨_, hthere⟩
  · rintro ⟨object, hobject⟩
    rw [hobject, Option.getD_some, Shelf.set_of_get? hobject]

end MemoryPool

/-- A write to a key that is valid, whose end is below 2^63, lays its data over the bytes of the
object, none if there is no object, sets its time, and leaves all other objects alone. A read of an
object gives the bytes from its offset on, as many as it asks for and as there are, and none behind
the end; it changes nothing. So two writes, the second one right behind the first, come to one. -/
theorem objects_keep_bytes (p : MemoryPool) :
    (∀ (now : Int) (key : String) (data : Bytes) (offset : Nat), Names.checkKey key = .ok () →
      offset + data.length < Text.signedLimit →
      ∃ p' bytes, p.perform now (.write key data offset) = (.returned (.ok .done), p')
        ∧ ((p.content? key).getD []).IsOverlay offset data bytes
        ∧ p.Puts p' key ⟨bytes, now⟩
        ∧ p'.stat key = .ok ⟨bytes.length, now⟩)
    ∧ (∀ (now : Int) (key : String) (bytes : Bytes) (length offset : Nat),
      p.content? key = some bytes →
      ∃ part, p.perform now (.read key length offset) = (.returned (.ok (.data part)), p)
        ∧ bytes.IsRange offset (min (offset + length) bytes.length) part
        ∧ (bytes.length ≤ offset → part = []))
    ∧ (∀ (now now' : Int) (key : String) (first second : Bytes) (offset : Nat),
      Names.checkKey key = .ok () → offset + (first ++ second).length < Text.signedLimit →
      (p.perform now (.write key first offset)).2.perform now'
          (.write key second (offset + first.length)) =
        p.perform now' (.write key (first ++ second) offset)) := by
  refine ⟨?_, ?_, ?_⟩
  · intro now key data offset hkey hsmall
    let bytes := ((p.content? key).getD []).overlay offset data
    have hputs := p.puts_set key ⟨bytes, now⟩
    exact ⟨_, bytes, MemoryPool.perform_write_of_small now hkey hsmall,
      Bytes.isOverlay_overlay _ offset data, hputs, MemoryPool.stat_of_some hputs.there⟩
  · intro now key bytes length offset hcontent
    have hrange := bytes.isRange_slice offset length
    refine ⟨_, MemoryPool.perform_read_of_content now hcontent length offset, hrange, ?_⟩
    intro hbehind
    apply List.eq_nil_of_length_eq_zero
    rw [hrange.length]
    omega
  · intro now now' key first second offset hkey hsmall
    exact MemoryPool.perform_write_append now now' hkey hsmall

/-- To three bytes: two bytes behind a gap of one, a read across the end, and one byte at the end and
then another one. -/
theorem objects_keep_bytes_gap :
    let p : MemoryPool := (({} : MemoryPool).write 5 "k" [1, 2, 3] 0).2
    (∃ p' bytes, p.perform 9 (.write "k" [7, 8] 4) = (.returned (.ok .done), p')
        ∧ Bytes.IsOverlay [1, 2, 3] 4 [7, 8] bytes ∧ p'.stat "k" = .ok ⟨bytes.length, 9⟩)
    ∧ (∃ part, p.perform 9 (.read "k" 18446744073709551615 1) = (.returned (.ok (.data part)), p)
        ∧ part.length = 2)
    ∧ (p.perform 9 (.write "k" [4] 3)).2.perform 10 (.write "k" [5] 4) =
        p.perform 10 (.write "k" [4, 5] 3) := by
  intro p
  rcases objects_keep_bytes p with ⟨hwrite, hread, happend⟩
  refine ⟨?_, ?_, ?_⟩
  · rcases hwrite 9 "k" [7, 8] 4 (by rfl) (by decide) with ⟨p', bytes, hperform, hlaid, -, hstat⟩
    exact ⟨p', bytes, hperform, hlaid, hstat⟩
  · rcases hread 9 "k" [1, 2, 3] 18446744073709551615 1 (by rfl) with ⟨part, hperform, hrange, -⟩
    exact ⟨part, hperform, hrange.length⟩
  · exact happend 9 10 "k" [4] [5] 3 (by rfl) (by decide)

/-- A write is carried out, or refused without a trace, exactly if its key is not valid or its end
is below 2^63. Otherwise it breaks off, because memory of that size cannot be asked for, or because
the end is no 64-bit number, which is noticed as sums are checked for overflow. Then an object that
was there is as it was, and one that was not has been made and is empty. -/
theorem writes_reach_limit (p : MemoryPool) (now : Int) (key : String) (data : Bytes)
    (offset : Nat) :
    (p.EndsWell now key data offset ↔
      (Names.checkKey key = .ok () → offset + data.length < Text.signedLimit))
    ∧ (¬ p.EndsWell now key data offset →
      ∃ p', p.write now key data offset = (.broken (if offset + data.length < Text.wordLimit then
            .capacityOverflow else .lengthOverflow), p')
        ∧ p.Puts p' key ((p.objects.get? key).getD {})
        ∧ (p' = p ↔ ∃ object, p.objects.get? key = some object)) := by
  have hiff := p.endsWell_iff now key data offset
  refine ⟨hiff, ?_⟩
  intro hbroken
  rw [hiff, Classical.not_imp, Nat.not_lt] at hbroken
  rcases hbroken with ⟨hkey, hlarge⟩
  exact ⟨_, MemoryPool.write_of_large now hkey hlarge, p.puts_set key _, MemoryPool.put_back_eq_iff⟩

/-- One byte at the last offset there is makes an object, and the end of the byte has no number. -/
theorem writes_reach_limit_top :
    ¬ ({} : MemoryPool).EndsWell 0 "k" [118] 18446744073709551615
      ∧ ∃ p', ({} : MemoryPool).write 0 "k" [118] 18446744073709551615 =
          (.broken .lengthOverflow, p')
        ∧ p'.content? "k" = some [] ∧ p' ≠ {} := by
  rcases writes_reach_limit {} 0 "k" [118] 18446744073709551615 with ⟨hiff, hbroken⟩
  have hends : ¬ ({} : MemoryPool).EndsWell 0 "k" [118] 18446744073709551615 := by
    intro h
    exact absurd (hiff.mp h (by rfl)) (by decide)
  rcases hbroken hends with ⟨p', hwrite, hputs, hsame⟩
  have hempty : p'.content? "k" = some [] := by
    unfold MemoryPool.content?
    rw [hputs.there]
    rfl
  refine ⟨hends, p', hwrite, hempty, ?_⟩
  intro heq
  rcases hsame.mp heq with ⟨object, hobject⟩
  cases hobject

/-- One byte at 2^63 is neither written nor refused, though its offset is a 64-bit number, and an
empty object is there behind it. -/
theorem write_at_signed_limit :
    Text.signedLimit < Text.wordLimit
      ∧ ¬ ({} : MemoryPool).EndsWell 0 "k" [118] Text.signedLimit
      ∧ (({} : MemoryPool).write 0 "k" [118] Text.signedLimit).2.keys = ["k"] := by
  refine ⟨by decide, ?_, by rfl⟩
  rw [MemoryPool.endsWell_iff]
  intro hfits
  exact absurd (hfits (by rfl)) (by decide)

end DavGateway
