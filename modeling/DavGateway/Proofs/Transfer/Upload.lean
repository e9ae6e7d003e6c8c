import DavGateway.Proofs.Bytes
import DavGateway.Proofs.Session
import DavGateway.Transfer.Upload

/-!
# Uploads store what arrived

While a body arrives, the bytes that were written and those that wait make up, one behind the
other, what has arrived (`Progress.Covers`), and the object holds the bytes that were written. An
object that is replaced is removed first, so that nothing of it is left behind a shorter body.
-/

namespace DavGateway

namespace Upload

variable (now : Int) {p p' : MemoryPool} {key : String} {c : Nat} {declared : Option Nat}

/-! ## Chunks -/

/-- The chunks and what follows them are the bytes. -/
theorem cutOff_flatten (c count : Nat) (bytes : Bytes) :
    (cutOff c count bytes).1.flatten ++ (cutOff c count bytes).2 = bytes := by
  induction count generalizing bytes with
  | zero => rfl
  | succ count ih =>
    show (bytes.take c ++ (cutOff c count (bytes.drop c)).1.flatten)
      ++ (cutOff c count (bytes.drop c)).2 = bytes
    rw [List.append_assoc, ih, List.take_append_drop]

theorem cut_flatten (c : Nat) (bytes : Bytes) : (cut c bytes).1.flatten ++ (cut c bytes).2 = bytes :=
  cutOff_flatten c _ bytes

/-! ## The object during an upload -/

/-- The pool `p'` is the pool `p` with `content` under the key. -/
structure Stored (p p' : MemoryPool) (key : String) (content : Option Bytes) : Prop where
  content : p'.content? key = content
  others : ∀ other, other ≠ key → p'.objects.get? other = p.objects.get? other

/-- The object holds the bytes that were written; there is none before the first chunk. -/
def kept (chunks : Nat) (written : Bytes) : Option Bytes := if chunks = 0 then none else some written

theorem kept_getD {chunks : Nat} {written : Bytes} (h : chunks = 0 → written = []) :
    (kept chunks written).getD [] = written := by
  unfold kept
  split
  · next hzero => exact (h hzero).symm
  · rfl

/-- A chunk that is written right behind the bytes that are there. -/
theorem Stored.write {q : MemoryPool} {written chunk : Bytes} {content : Option Bytes}
    (h : Stored p q key content) (hcontent : content.getD [] = written)
    (hkey : Names.checkKey key = .ok ()) (hsmall : (written ++ chunk).length < Text.signedLimit) :
    ∃ p', q.Runs now (Session.write key chunk written.length : SessionM Empty Unit).run [] (.ok ())
        p' ∧ Stored p p' key (some (written ++ chunk)) := by
  have hfits : written.length + chunk.length < Text.signedLimit := by
    rwa [List.length_append] at hsmall
  refine ⟨_, .write_small hkey hfits, ?_, ?_⟩
  · rw [h.content, hcontent, Bytes.overlay_length]
    simp [MemoryPool.content?]
  · intro other hne
    rw [Shelf.get?_set, if_neg hne]
    exact h.others other hne

/-- Chunks that are written one behind the other are appended to the object. -/
theorem writeChunks_runs {q : MemoryPool} {written : Bytes} {count : Nat} (chunks : List Bytes)
    (h : Stored p q key (kept count written)) (hzero : count = 0 → written = [])
    (hkey : Names.checkKey key = .ok ())
    (hsmall : (written ++ chunks.flatten).length < Text.signedLimit) :
    ∃ p', q.Runs now (writeChunks key chunks written.length).run []
        (.ok (written ++ chunks.flatten).length) p'
      ∧ Stored p p' key (kept (count + chunks.length) (written ++ chunks.flatten)) := by
  induction chunks generalizing q written count with
  | nil =>
    refine ⟨q, ?_, ?_⟩
    · rw [List.flatten_nil, List.append_nil]
      exact .done _ _
    · rwa [List.flatten_nil, List.append_nil, List.length_nil, Nat.add_zero]
  | cons chunk rest ih =>
    rw [List.flatten_cons, ← List.append_assoc] at hsmall ⊢
    have hfirst : (written ++ chunk).length < Text.signedLimit := by
      rw [List.length_append] at hsmall
      omega
    rcases h.write now (kept_getD hzero) hkey hfirst with ⟨q', hwrite, hstored⟩
    have hkept : kept (count + 1) (written ++ chunk) = some (written ++ chunk) := by
      unfold kept
      rw [if_neg (Nat.succ_ne_zero count)]
    rw [← hkept] at hstored
    rcases ih hstored (fun h => absurd h (Nat.succ_ne_zero count)) hsmall with ⟨p', hrest, hdone⟩
    refine ⟨p', ?_, ?_⟩
    · rw [List.length_append] at hrest
      exact hwrite.step hrest
    · rwa [List.length_cons, Nat.add_comm rest.length, ← Nat.add_assoc]

/-! ## The body arrives -/

/-- What has arrived is what was written and what waits. -/
structure Progress.Covers (g : Progress) (arrived written : Bytes) : Prop where
  whole : written ++ g.waiting = arrived
  received : g.received = arrived.length
  position : g.written = written.length
  nothing : g.chunks = 0 → written = []

/-- A frame that stays within the declared length is taken in. -/
theorem receive_runs {q : MemoryPool} {g : Progress} {arrived written : Bytes} (frames : List Bytes)
    (hcovers : g.Covers arrived written) (h : Stored p q key (kept g.chunks written))
    (hkey : Names.checkKey key = .ok ())
    (hsmall : (arrived ++ frames.flatten).length < Text.signedLimit)
    (hdeclared : ∀ length, declared = some length → (arrived ++ frames.flatten).length ≤ length) :
    ∃ g' written' p', q.Runs now (receive key c declared (frames.map .ok) g).run [] (.ok g') p'
      ∧ g'.Covers (arrived ++ frames.flatten) written' ∧ Stored p p' key (kept g'.chunks written') := by
  induction frames generalizing q g arrived written with
  | nil =>
    rw [List.flatten_nil, List.append_nil]
    exact ⟨g, written, q, .done _ _, hcovers, h⟩
  | cons frame rest ih =>
    rw [List.flatten_cons, ← List.append_assoc] at hsmall hdeclared ⊢
    have hreceived : g.received + frame.length = (arrived ++ frame).length := by
      rw [List.length_append, hcovers.received]
    have hbound : (arrived ++ frame).length ≤ (arrived ++ frame ++ rest.flatten).length :=
      (List.sublist_append_left _ _).length_le
    -- what has arrived is never longer than what was declared
    have hallowed : declared.filter (· < g.received + frame.length) = none := by
      cases declared with
      | none => rfl
      | some length =>
        have hle := hdeclared length rfl
        simp only [Option.filter_some, decide_eq_true_eq]
        rw [if_neg (by omega)]
    -- what waits and the frame are cut into chunks and a new rest that waits
    let parts := cut c (g.waiting ++ frame)
    have hparts : written ++ parts.1.flatten ++ parts.2 = arrived ++ frame := by
      rw [List.append_assoc, cut_flatten, ← List.append_assoc, hcovers.whole]
    have hlength : (written ++ parts.1.flatten).length ≤ (arrived ++ frame).length :=
      hparts ▸ (List.sublist_append_left _ parts.2).length_le
    rcases writeChunks_runs now parts.1 h hcovers.nothing hkey (by omega) with ⟨q', hwrite, hstored⟩
    have hnext : Progress.Covers ⟨g.received + frame.length, (written ++ parts.1.flatten).length,
        g.chunks + parts.1.length, parts.2⟩ (arrived ++ frame) (written ++ parts.1.flatten) := by
      refine ⟨hparts, hreceived, rfl, fun hzero => ?_⟩
      have hnone : parts.1 = [] := List.eq_nil_of_length_eq_zero (Nat.eq_zero_of_add_eq_zero hzero).2
      rw [hcovers.nothing (Nat.eq_zero_of_add_eq_zero hzero).1, hnone]
      rfl
    rcases ih hnext hstored hsmall hdeclared with ⟨g', written', p', hrest, hdone⟩
    refine ⟨g', written', p', ?_, hdone⟩
    rw [List.map_cons]
    simp only [receive, hallowed]
    rw [← hcovers.position] at hwrite
    exact hwrite.step hrest

/-- What waits is written at the end, so that the object holds the whole body. -/
theorem finish_runs {q : MemoryPool} {g : Progress} {body written : Bytes}
    (hcovers : g.Covers body written) (h : Stored p q key (kept g.chunks written))
    (hkey : Names.checkKey key = .ok ()) (hsmall : body.length < Text.signedLimit)
    (hdeclared : ∀ length, declared = some length → length ≤ body.length) :
    ∃ g' p', q.Runs now (finish key declared g).run [] (.ok g') p'
      ∧ Stored p p' key (some body) := by
  have hallowed : declared.filter (g.received < ·) = none := by
    cases declared with
    | none => rfl
    | some length =>
      have hle := hdeclared length rfl
      have hreceived := hcovers.received
      simp only [Option.filter_some, decide_eq_true_eq]
      rw [if_neg (by omega)]
  unfold finish
  simp only [hallowed]
  -- an empty body is written too, as one empty chunk
  by_cases hwaits : g.waiting ≠ [] ∨ g.chunks = 0
  · rw [if_pos hwaits]
    rcases h.write now (kept_getD hcovers.nothing) hkey (hcovers.whole.symm ▸ hsmall)
        with ⟨p', hwrite, hstored⟩
    rw [← hcovers.position] at hwrite
    rw [hcovers.whole] at hstored
    exact ⟨_, p', hwrite.step (.done _ _), hstored⟩
  · rw [if_neg hwaits]
    have hwritten : written = body := by
      have hwaiting : g.waiting = [] := by
        by_contra hne
        exact hwaits (.inl hne)
      rw [← hcovers.whole, hwaiting, List.append_nil]
    have hkept : kept g.chunks written = some body := by
      unfold kept
      rw [if_neg fun hzero => hwaits (.inr hzero), hwritten]
    exact ⟨g, q, .done _ _, hkept ▸ h⟩

/-- An object is gone after it was cleared. -/
theorem clear_runs {object : MemoryObject} (h : p.objects.get? key = some object) :
    ∃ p', p.Runs now (clear key).run [] (.ok ()) p' ∧ Stored p p' key none := by
  have hremove : p.Runs now (Session.attempt (Session.remove key) : SessionM Empty _).run []
      (.ok (.ok ())) ⟨p.objects.erase key⟩ := (MemoryPool.Runs.remove_of_some h).attempt
  refine ⟨⟨p.objects.erase key⟩, hremove.step (.done _ _), ?_, fun other hne => ?_⟩
  · rw [MemoryPool.content?, Shelf.get?_erase, if_pos rfl, Option.map_none]
  · rw [Shelf.get?_erase, if_neg hne]

/-- An upload of a whole body stores the body, in place of the object that was there. -/
theorem run_runs (p : MemoryPool) {key : String} (frames : List Bytes) (chunkSize : Nat)
    (hkey : Names.checkKey key = .ok ()) (hsmall : frames.flatten.length < Text.signedLimit)
    (hdeclared : ∀ length, declared = some length → length = frames.flatten.length) :
    ∃ receipt p', p.Runs now (run chunkSize
        ⟨key, frames.map .ok, declared, (p.objects.get? key).isSome⟩).run [] (.ok receipt) p'
      ∧ Stored p p' key (some frames.flatten) := by
  -- from a pool without the object, the upload goes through
  have hrest : ∀ q, Stored p q key none → ∃ receipt p', q.Runs now
      (do
        let g ← receive key (max chunkSize 1) declared (frames.map .ok) {}
        let g ← finish key declared g
        return ⟨g.received, g.chunks, (p.objects.get? key).isSome⟩ : SessionM Empty UploadReceipt).run
      [] (.ok receipt) p' ∧ Stored p p' key (some frames.flatten) := by
    intro q hq
    have hstart : Progress.Covers {} [] [] := ⟨rfl, rfl, rfl, fun _ => rfl⟩
    rcases receive_runs now (c := max chunkSize 1) frames hstart hq hkey hsmall
        (fun length h => Nat.le_of_eq (hdeclared length h).symm)
        with ⟨g, written, q', hreceive, hcovers, hstored⟩
    rcases finish_runs now hcovers hstored hkey hsmall
        (fun length h => Nat.le_of_eq (hdeclared length h)) with ⟨g', p', hfinish, hdone⟩
    exact ⟨_, p', hreceive.step (hfinish.step (.done _ _)), hdone⟩
  cases hget : p.objects.get? key with
  | none =>
    have habsent : Stored p p key none :=
      ⟨MemoryPool.content?_eq_none.mpr hget, fun _ _ => rfl⟩
    rcases hrest p habsent with ⟨receipt, p', hrun, hdone⟩
    rw [hget] at hrun
    exact ⟨receipt, p', hrun, hdone⟩
  | some object =>
    rcases clear_runs now hget with ⟨q, hclear, hq⟩
    rcases hrest q hq with ⟨receipt, p', hrun, hdone⟩
    rw [hget] at hrun
    exact ⟨receipt, p', hclear.step hrun, hdone⟩

end Upload

end DavGateway
