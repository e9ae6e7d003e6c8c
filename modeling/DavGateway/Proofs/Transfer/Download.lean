import DavGateway.Proofs.Session
import DavGateway.Transfer.Download

/-!
# Downloads hand out the object

The reads of a download follow each other without a gap, so the chunks, one behind the other, are
what the object holds from the offset on.
-/

namespace DavGateway.Download

variable (now : Int) {p : MemoryPool} {key : String} {object : MemoryObject} {c : Nat}

/-- From any offset on, the chunks are the rest of the object. -/
theorem chunksFrom_runs (h : p.objects.get? key = some object) (hc : 1 ≤ c) (offset : Nat) :
    ∃ chunks, p.Runs now (chunksFrom c key object.data.length offset).run chunks (.ok ()) p
      ∧ chunks.flatten = object.data.drop offset := by
  -- each chunk brings the offset closer to the end
  induction hleft : object.data.length - offset using Nat.strongRecOn generalizing offset with
  | ind left ih =>
    rw [chunksFrom]
    by_cases hmore : offset < object.data.length
    · rw [if_pos hmore]
      let count := min (object.data.length - offset) c
      have hread : p.Runs now (Session.read key count offset : SessionM Bytes Bytes).run [] _ p :=
        .read_of_some h count offset
      obtain ⟨data, hdata⟩ : ∃ data, data = object.data.slice offset count := ⟨_, rfl⟩
      rw [← hdata] at hread
      have hlength : data.length = count := by
        rw [hdata, Bytes.slice, List.length_take, List.length_drop]
        omega
      have hpositive : data.length ≠ 0 := by omega
      rcases ih (object.data.length - (offset + data.length)) (by omega) (offset + data.length) rfl
          with ⟨chunks, hrest, hflatten⟩
      refine ⟨data :: chunks, hread.step ?_, ?_⟩
      · rw [if_neg hpositive]
        exact (MemoryPool.Runs.emit_item data).ok_bind hrest
      · rw [List.flatten_cons, hflatten, hlength, ← List.drop_drop, hdata]
        exact List.take_append_drop count (object.data.drop offset)
    · rw [if_neg hmore]
      refine ⟨[], .done _ _, ?_⟩
      rw [List.drop_eq_nil_of_le (Nat.not_lt.mp hmore)]
      rfl

/-- A download hands out the bytes of the object. -/
theorem run_runs (h : p.objects.get? key = some object) (chunkSize : Nat) :
    ∃ chunks, p.Runs now (run chunkSize key object.data.length).run chunks (.ok ()) p
      ∧ chunks.flatten = object.data := chunksFrom_runs now h (Nat.le_max_right chunkSize 1) 0

end DavGateway.Download
