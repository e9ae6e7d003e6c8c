import DavGateway.Proofs.Transfer.Writes
import Mathlib.Data.List.TakeWhile

/-!
# What an upload leaves

An upload can fail at its removal, at a frame, at the length of its body or at a write. Whatever
happens, a store that is orderly then holds the chunks that were written, and nothing else under the
key if the object was removed before (`failed_upload_leaves_beginning`). An object that the store
says not to have, although it has it, shows behind them (`upload_keeps_old_end`).
-/

namespace DavGateway

namespace Upload

variable {σ : Type} {answer : (call : SessionCall) → StateM σ call.Answer} {s : σ}
variable {objects : σ → String → Option Bytes} {key : String} {c : Nat}
variable {events : List (Sigma SessionCall.Answer)}

/-- A removal failed, because there is no object (`missing`) or for another reason. -/
def RemovalFails (key : String) (missing : Bool) (events : List (Sigma SessionCall.Answer)) :
    Prop :=
  ∃ failure : Failure, failure.isNotFound = missing
    ∧ ⟨.operate (.remove key), .error failure⟩ ∈ events

/-- A write failed. -/
def WriteFails (key : String) (events : List (Sigma SessionCall.Answer)) : Prop :=
  ∃ data offset failure, ⟨.operate (.write key data offset), .error failure⟩ ∈ events

/-! ## After the removal -/

section Events

variable {failure : Failure} {missing : Bool} {outcome : Outcome}

theorem chunksWritten_remove :
    chunksWritten (⟨.operate (.remove key), outcome⟩ :: events) = chunksWritten events :=
  List.countP_cons_of_neg Bool.false_ne_true

theorem writeFails_remove :
    WriteFails key (⟨.operate (.remove key), outcome⟩ :: events) ↔ WriteFails key events := by
  constructor
  · rintro ⟨data, offset, failure, hmem⟩
    rcases List.mem_cons.mp hmem with heq | hmem
    · cases heq
    · exact ⟨data, offset, failure, hmem⟩
  · rintro ⟨data, offset, failure, hmem⟩
    exact ⟨data, offset, failure, List.mem_cons_of_mem _ hmem⟩

theorem removalFails_ok {reply : Reply} :
    RemovalFails key missing (⟨.operate (.remove key), .ok reply⟩ :: events) ↔
      RemovalFails key missing events := by
  constructor
  · rintro ⟨failure, hfailure, hmem⟩
    rcases List.mem_cons.mp hmem with heq | hmem
    · cases heq
    · exact ⟨failure, hfailure, hmem⟩
  · rintro ⟨failure, hfailure, hmem⟩
    exact ⟨failure, hfailure, List.mem_cons_of_mem _ hmem⟩

theorem removalFails_of_failure (h : failure.isNotFound = missing) :
    RemovalFails key missing (⟨.operate (.remove key), .error failure⟩ :: events) :=
  ⟨failure, h, List.mem_cons_self⟩

theorem removalFails_error (h : failure.isNotFound ≠ missing) :
    RemovalFails key missing (⟨.operate (.remove key), .error failure⟩ :: events) ↔
      RemovalFails key missing events := by
  constructor
  · rintro ⟨other, hother, hmem⟩
    rcases List.mem_cons.mp hmem with heq | hmem
    · cases heq
      exact absurd hother h
    · exact ⟨other, hother, hmem⟩
  · rintro ⟨other, hother, hmem⟩
    exact ⟨other, hother, List.mem_cons_of_mem _ hmem⟩

end Events

section Laying

variable {chunks : List Bytes} {offset : Nat} {verdict result : Except Failure UploadReceipt}
variable {before after : String → Option Bytes}

theorem Lays.not_removalFails (h : Lays key chunks offset verdict before after events result)
    (missing : Bool) : ¬ RemovalFails key missing events := by
  rintro ⟨failure, -, hmem⟩
  obtain ⟨data, offset, hwrite⟩ := h.writes _ hmem
  cases hwrite

theorem Lays.writeFails_iff (h : Lays key chunks offset verdict before after events result) :
    ¬ WriteFails key events ↔ chunksWritten events = chunks.length := by
  rw [← h.complete]
  constructor
  · rintro hwrites ⟨call, reply⟩ hmem
    obtain ⟨data, offset, rfl⟩ := h.writes _ hmem
    match reply with
    | .ok reply => rfl
    | .error failure => exact absurd ⟨data, offset, failure, hmem⟩ hwrites
  · rintro hall ⟨data, offset, failure, hmem⟩
    cases hall _ hmem

end Laying

/-- The bytes of a request before the first frame that fails. -/
def arriving (request : UploadRequest) : Bytes := bytesOf (request.frames.takeWhile Except.isOk)

/-- Of a request, all is taken in if no frame fails and the body has the declared length. -/
theorem intake_ending_iff (request : UploadRequest) :
    (intake request.declared request.frames []).ending = .ok () ↔
      (∀ frame ∈ request.frames, frame.isOk) ∧ ∀ length, request.declared = some length →
        length = (arriving request).length := by
  rw [arriving, intake_ending fun _ _ => Nat.zero_le _, List.nil_append]
  refine and_congr_right fun hframes => ?_
  rw [List.takeWhile_eq_self_iff.mpr hframes]

/-- What the writes of an upload come to, and what they leave of the objects. If the upload fails, a
beginning of what arrived is laid over the object. -/
structure Remains (request : UploadRequest) (c : Nat) (before after : String → Option Bytes)
    (events : List (Sigma SessionCall.Answer)) (result : Except Failure UploadReceipt) : Prop where
  removal : ∀ missing, ¬ RemovalFails request.key missing events
  ending : result.isOk ↔ ¬ WriteFails request.key events ∧ (∀ frame ∈ request.frames, frame.isOk)
    ∧ ∀ length, request.declared = some length → length = (arriving request).length
  arrived : ¬ result.isOk → chunksWritten events * c ≤ (arriving request).length
  declared : ¬ result.isOk → ∀ length, request.declared = some length →
    chunksWritten events * c ≤ length
  objects : ¬ result.isOk → after = if chunksWritten events = 0 then before
    else Function.update before request.key (some (((before request.key).getD []).overlay 0
      ((arriving request).take (chunksWritten events * c))))

theorem laid_take_pieces {i : Intake} {before : String → Option Bytes} {k : Nat} (hc : 0 < c)
    (h : k ≤ (i.pieces c).length) : laid before key 0 ((i.pieces c).take k) =
      if k = 0 then before
      else Function.update before key (some (((before key).getD []).overlay 0
        (i.bytes.take (k * c)))) := by
  rw [laid, Intake.take_pieces_flatten hc h]
  by_cases hnone : k = 0
  · rw [hnone, List.take_zero, if_pos rfl, if_pos rfl]
  · have hsome : (i.pieces c).take k ≠ [] := by
      intro hnil
      have hlength := congrArg List.length hnil
      rw [List.length_take_of_le h] at hlength
      exact hnone hlength
    rw [if_neg hsome, if_neg hnone]

theorem Intake.verdict_isOk (i : Intake) (c : Nat) (replaces : Bool) :
    (i.verdict c replaces).isOk ↔ i.ending = .ok () := by
  obtain ⟨bytes, ending⟩ := i
  cases ending with
  | ok => exact ⟨fun _ => rfl, fun _ => rfl⟩
  | error failure => exact ⟨nofun, nofun⟩

theorem Lays.isOk_iff {chunks : List Bytes} {offset : Nat}
    {verdict result : Except Failure UploadReceipt} {before after : String → Option Bytes}
    (h : Lays key chunks offset verdict before after events result) :
    result.isOk ↔ ¬ WriteFails key events ∧ verdict.isOk := by
  have hending := h.ending
  rw [h.writeFails_iff]
  split at hending
  · next hall =>
    rw [hending]
    exact (and_iff_right hall).symm
  · next hstopped =>
    obtain ⟨failure, rfl⟩ := hending
    exact ⟨nofun, fun hends => absurd hends.1 hstopped⟩

theorem Lays.remains {request : UploadRequest} {replaces : Bool}
    {before after : String → Option Bytes} {result : Except Failure UploadReceipt} (hc : 0 < c)
    (h : Lays request.key ((intake request.declared request.frames []).pieces c) 0
      ((intake request.declared request.frames []).verdict c replaces) before after events result) :
    Remains request c before after events result := by
  have hends := intake_ending_iff request
  have hprefix := intake_bytes_prefix request.declared request.frames []
  have hwithin : ∀ length, request.declared = some length →
      (intake request.declared request.frames []).bytes.length ≤ length :=
    intake_within fun _ _ => Nat.zero_le _
  generalize intake request.declared request.frames [] = i at *
  have hok := h.isOk_iff
  rw [i.verdict_isOk] at hok
  have hlength : ¬ result.isOk → chunksWritten events * c ≤ i.bytes.length := fun hfails =>
    Intake.mul_le_length hc h.bound fun hall hending =>
      hfails (hok.mpr ⟨h.writeFails_iff.mpr hall, hending⟩)
  constructor
  · exact h.not_removalFails
  · rw [hok, hends]
  · exact fun hfails => Nat.le_trans (hlength hfails) hprefix.length_le
  · exact fun hfails length hdeclared => Nat.le_trans (hlength hfails) (hwithin length hdeclared)
  · intro hfails
    have htake : i.bytes.take (chunksWritten events * c) =
        (arriving request).take (chunksWritten events * c) := by
      rw [List.prefix_iff_eq_take.mp hprefix, List.nil_append, List.take_take,
        Nat.min_eq_left (hlength hfails)]
      rfl
    rw [h.objects, laid_take_pieces hc h.bound, htake]

section Contents

variable {request : UploadRequest} {before after : String → Option Bytes}
variable {result : Except Failure UploadReceipt}

theorem Remains.others (h : Remains request c before after events result) (hfails : ¬ result.isOk)
    {other : String} (hne : other ≠ request.key) : after other = before other := by
  rw [h.objects hfails]
  split
  · rfl
  · exact Function.update_of_ne hne _ _

theorem Remains.content (h : Remains request c before after events result)
    (hfails : ¬ result.isOk) : after request.key =
      if chunksWritten events = 0 then before request.key
      else some (((before request.key).getD []).overlay 0
        ((arriving request).take (chunksWritten events * c))) := by
  rw [h.objects hfails]
  split
  · rfl
  · exact Function.update_self _ _ _

/-- Where there was no object, there is a beginning of what arrived. -/
theorem Remains.content_of_none (h : Remains request c before after events result)
    (hfails : ¬ result.isOk) (hnone : before request.key = none) : after request.key =
      if chunksWritten events = 0 then none
      else some ((arriving request).take (chunksWritten events * c)) := by
  rw [h.content hfails, hnone, Option.getD_none, Bytes.nil_overlay]

/-- Where there was no object, nothing else than a beginning of what arrived can be left. -/
theorem Remains.beginning (h : Remains request c before after events result)
    (hfails : ¬ result.isOk) (hnone : before request.key = none) (kept : Option Bytes) :
    chunksWritten events * c ≤ (arriving request).length
      ∧ (∀ length, request.declared = some length → chunksWritten events * c ≤ length)
      ∧ (¬ RemovalFails request.key true events → after request.key =
        if chunksWritten events = 0 then none
        else some ((arriving request).take (chunksWritten events * c)))
      ∧ (RemovalFails request.key true events → after request.key = kept) :=
  ⟨h.arrived hfails, h.declared hfails, fun _ => h.content_of_none hfails hnone,
    fun hmissing => absurd hmissing (h.removal true)⟩

end Contents

end Upload

open Upload

/-- A pool in memory is orderly along every upload of a body that memory can hold, whichever calls
fail. -/
theorem upload_along_falter (fault : Nat → Option Failure) (now : Int) (s : MemoryPool × Nat)
    (chunkSize : Nat) (request : UploadRequest)
    (hsmall : (bytesOf request.frames).length < Text.signedLimit) :
    (run chunkSize request).run.Along
      (SessionCall.Orderly (fun s => s.1.content?) (MemoryPool.falter fault now))
      (MemoryPool.falter fault now) s :=
  (run_small hsmall request.key request.declared chunkSize request.replaces).along
    fun _ s hcall => MemoryPool.orderly_falter fault now s hcall

/-- An upload ends well if, and only if, its removal succeeds or finds no object, the whole body
arrives, and all writes succeed. If it fails, and its removal has failed for good, everything is as
it was. Otherwise the object holds the chunks that were written, which are a beginning of what has
arrived and not more than was declared. A removal that finds no object leaves the one that is there
behind them. -/
theorem failed_upload_leaves_beginning {σ : Type} (objects : σ → String → Option Bytes)
    (answer : (call : SessionCall) → StateM σ call.Answer) (s : σ) (chunkSize : Nat)
    (request : UploadRequest)
    (halong : (run chunkSize request).run.Along (SessionCall.Orderly objects answer) answer s)
    (hreplaces : request.replaces = (objects s request.key).isSome) :
    let c := max chunkSize 1
    let upload := (run chunkSize request).run
    let events := upload.events answer s
    let result := (upload.run answer s).1
    let before := objects s
    let after := objects (upload.run answer s).2
    let arrived := arriving request
    let k := chunksWritten events
    -- when it ends well
    (result.isOk ↔ ¬ RemovalFails request.key false events ∧ ¬ WriteFails request.key events
        ∧ (∀ frame ∈ request.frames, frame.isOk)
        ∧ ∀ length, request.declared = some length → length = arrived.length)
      -- what is left if it fails
      ∧ (¬ result.isOk →
        (∀ other, other ≠ request.key → after other = before other)
          ∧ (RemovalFails request.key false events → after = before)
          ∧ (¬ RemovalFails request.key false events →
            k * c ≤ arrived.length ∧ (∀ length, request.declared = some length → k * c ≤ length)
              ∧ (¬ RemovalFails request.key true events → after request.key =
                if k = 0 then none else some (arrived.take (k * c)))
              ∧ (RemovalFails request.key true events → after request.key =
                if k = 0 then before request.key
                else some (((before request.key).getD []).overlay 0 (arrived.take (k * c)))))) := by
  intro c upload events result before after arrived k
  have hc : 0 < c := Nat.le_max_right chunkSize 1
  have hflow := run_flow chunkSize request
  have hcleared := clearing_cleared (hflow ▸ halong)
  rw [← hflow] at hcleared
  change Cleared objects answer request.key _ s request.replaces events (upload.run answer s)
    at hcleared
  subst k after result
  generalize events = noted at *
  generalize upload.run answer s = ran at *
  generalize request.replaces = replaces at *
  cases hcleared with
  | skipped hrest =>
    have hleft := (writeOut_lays hrest).remains hc
    have hnone : before request.key = none :=
      Option.not_isSome_iff_eq_none.mp (hreplaces ▸ Bool.false_ne_true)
    refine ⟨?_, fun hfails => ⟨fun other hne => hleft.others hfails hne, ?_, fun _ => ?_⟩⟩
    · rw [hleft.ending, and_iff_right (hleft.removal false)]
    · exact fun hrefused => absurd hrefused (hleft.removal false)
    · exact hleft.beginning hfails hnone _
  | removed hobjects hrest =>
    have hleft := (writeOut_lays hrest).remains hc
    have hnone := (congrFun hobjects request.key).trans (Function.update_self _ _ _)
    rw [removalFails_ok, removalFails_ok, writeFails_remove, chunksWritten_remove]
    refine ⟨?_, fun hfails => ⟨fun other hne => ?_, ?_, fun _ => ?_⟩⟩
    · rw [hleft.ending, and_iff_right (hleft.removal false)]
    · rw [hleft.others hfails hne, hobjects, Function.update_of_ne hne]
    · exact fun hrefused => absurd hrefused (hleft.removal false)
    · exact hleft.beginning hfails hnone _
  | missing hmissing hobjects hrest =>
    have hleft := (writeOut_lays hrest).remains hc
    rw [removalFails_error (hmissing ▸ (nofun : true ≠ false)), writeFails_remove,
      chunksWritten_remove]
    refine ⟨?_, fun hfails => ⟨fun other hne => ?_, ?_, fun _ => ?_⟩⟩
    · rw [hleft.ending, and_iff_right (hleft.removal false)]
    · rw [hleft.others hfails hne, hobjects]
    · exact fun hrefused => absurd hrefused (hleft.removal false)
    · refine ⟨hleft.arrived hfails, hleft.declared hfails,
        fun hthere => absurd (removalFails_of_failure hmissing) hthere, fun _ => ?_⟩
      rw [hleft.content hfails, hobjects]
  | refused hrefused hobjects =>
    refine ⟨⟨nofun, fun hends => absurd (removalFails_of_failure hrefused) hends.1⟩, fun _ => ?_⟩
    exact ⟨fun other _ => congrFun hobjects other, fun _ => hobjects,
      fun hnot => absurd (removalFails_of_failure hrefused) hnot⟩

/-- Eight bytes of an upload that replaces the ten of `poolOfTen`. -/
def eightForTen : UploadRequest :=
  ⟨"k", [.ok [11, 12, 13], .ok [14, 15, 16, 17, 18]], some 8, true⟩

/-- The third call, which is the second write, fails. -/
def thirdFails (n : Nat) : Option Failure := if n = 2 then some (.store "full") else none

/-- The first of two chunks was written, and is what is left. -/
theorem failed_upload_leaves_beginning_four :
    let upload := (run 4 eightForTen).run
    let answer := MemoryPool.falter thirdFails 0
    upload.Along (SessionCall.Orderly (fun s => s.1.content?) answer) answer (poolOfTen, 0)
      ∧ eightForTen.replaces = (poolOfTen.content? "k").isSome
      ∧ ¬ (upload.run answer (poolOfTen, 0)).1.isOk
      ∧ (upload.run answer (poolOfTen, 0)).2.1.content? "k" = some [11, 12, 13, 14] := by
  intro upload answer
  have halong := upload_along_falter thirdFails 0 (poolOfTen, 0) 4 eightForTen (by decide)
  have hreplaces : eightForTen.replaces = (poolOfTen.content? "k").isSome := by decide
  have hevents : upload.events answer (poolOfTen, 0) =
      [⟨.operate (.remove "k"), .ok .done⟩, ⟨.operate (.write "k" [11, 12, 13, 14] 0), .ok .done⟩,
        ⟨.operate (.write "k" [15, 16, 17, 18] 4), .error (.store "full")⟩] := rfl
  have hremoved : ∀ missing, ¬ RemovalFails "k" missing (upload.events answer (poolOfTen, 0)) := by
    rintro missing ⟨failure, -, hmem⟩
    rw [hevents] at hmem
    simp only [List.mem_cons, List.not_mem_nil, or_false] at hmem
    rcases hmem with hmem | hmem | hmem <;> cases hmem
  obtain ⟨-, hleft⟩ := failed_upload_leaves_beginning (fun s => s.1.content?) answer (poolOfTen, 0)
    4 eightForTen halong hreplaces
  have hfails : ¬ (upload.run answer (poolOfTen, 0)).1.isOk := by decide
  obtain ⟨-, -, hkept⟩ := hleft hfails
  obtain ⟨-, -, hcontent, -⟩ := hkept (hremoved false)
  exact ⟨halong, hreplaces, hfails, hcontent (hremoved true)⟩

/-- The removal is answered that there is no such object, although there is one, and the body breaks
off behind its first frame. -/
def brokenForTen : UploadRequest :=
  ⟨"k", [.ok [11, 12, 13, 14], .error (.body "gone")], none, true⟩

/-- The first call fails, because there is no object. -/
def firstMisses (n : Nat) : Option Failure := if n = 0 then some (.objectNotFound "k") else none

/-- Behind the chunk that was written, the end of the object shows that was said to be missing. -/
theorem upload_keeps_old_end :
    let upload := (run 4 brokenForTen).run
    let answer := MemoryPool.falter firstMisses 0
    let ran := upload.run answer (poolOfTen, 0)
    upload.Along (SessionCall.Orderly (fun s => s.1.content?) answer) answer (poolOfTen, 0)
      ∧ brokenForTen.replaces = (poolOfTen.content? "k").isSome
      ∧ ran.1 = .error (.body "gone")
      ∧ chunksWritten (upload.events answer (poolOfTen, 0)) = 1
      ∧ ran.2.1.content? "k" = some [11, 12, 13, 14, 4, 5, 6, 7, 8, 9]
      ∧ ran.2.1.content? "k" ≠ poolOfTen.content? "k"
      ∧ ran.2.1.content? "k" ≠ some ((arriving brokenForTen).take (1 * 4)) := by
  refine ⟨upload_along_falter _ 0 _ 4 _ (by decide), ?_⟩
  decide

end DavGateway
