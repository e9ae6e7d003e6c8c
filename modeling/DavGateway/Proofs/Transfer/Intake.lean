import DavGateway.Proofs.Runs
import DavGateway.Proofs.Transfer.Pieces
import DavGateway.Proofs.Transfer.Rules

/-!
# Uploads without frames

An upload takes in the frames of its body until they end, one of them fails, or they are more or
less than was declared (`Upload.intake`). It then does as if the bytes that it took in had come at
once: it writes their pieces one behind the other, and ends (`Upload.run_eq`). For a whole body the
frames do not matter at all (`Upload.run_whole`).
-/

namespace DavGateway

namespace Upload

variable {c : Nat} {key : String}

/-! ## What an upload takes in -/

/-- The bytes that an upload takes in, and how this ends. -/
structure Intake where
  bytes : Bytes
  ending : Except Failure Unit

namespace Intake

/-- The pieces that are written of what was taken in. What follows the whole chunks is written only
at the end of the body. -/
def pieces (i : Intake) (c : Nat) : List Bytes :=
  match i.ending with
  | .ok () => Upload.pieces c i.bytes
  | .error _ => (cut c i.bytes).1

/-- What the upload comes to, if all pieces are written. -/
def verdict (i : Intake) (c : Nat) (replaces : Bool) : Except Failure UploadReceipt :=
  i.ending.map fun _ => ⟨i.bytes.length, (Upload.pieces c i.bytes).length, replaces⟩

variable {i : Intake} {k : Nat}

/-- The pieces that are written are chunks of what was taken in, as many as there are. -/
theorem pieces_eq_slices (hc : 0 < c) (i : Intake) : i.pieces c =
    (List.range (i.pieces c).length).map fun n => i.bytes.slice (n * c) c := by
  obtain ⟨bytes, ending⟩ := i
  cases ending with
  | ok =>
    show Upload.pieces c bytes = (List.range (Upload.pieces c bytes).length).map _
    rw [length_pieces hc]
    exact pieces_eq hc bytes
  | error failure =>
    show (cut c bytes).1 = (List.range (cut c bytes).1.length).map _
    rw [length_cut, cut, cutOff_eq]

/-- The first pieces are a beginning. -/
theorem take_pieces_flatten (hc : 0 < c) (h : k ≤ (i.pieces c).length) :
    ((i.pieces c).take k).flatten = i.bytes.take (k * c) := by
  rw [pieces_eq_slices hc, ← List.map_take, List.take_range, Nat.min_eq_left h, slices_flatten]

/-- All pieces are whole chunks, but the last one if the body ends. -/
theorem mul_le_length (hc : 0 < c) (h : k ≤ (i.pieces c).length)
    (hfails : k = (i.pieces c).length → i.ending ≠ .ok ()) : k * c ≤ i.bytes.length := by
  obtain ⟨bytes, ending⟩ := i
  cases ending with
  | ok =>
    have hlt : k < (Upload.pieces c bytes).length :=
      Nat.lt_of_le_of_ne h fun heq => hfails heq rfl
    rw [length_pieces hc] at hlt
    exact mul_le_of_lt_pieceCount hc hlt
  | error failure =>
    have hle : k ≤ (cut c bytes).1.length := h
    rw [length_cut] at hle
    exact (Nat.le_div_iff_mul_le hc).mp hle

end Intake

/-- What an upload takes in after some bytes. -/
def intake (declared : Option Nat) : List (Except Failure Bytes) → Bytes → Intake
  | [], arrived =>
    match declared.filter (arrived.length < ·) with
    | some limit =>
      ⟨arrived, .error (.body ("body ended after " ++ toString arrived.length ++ " of "
        ++ toString limit ++ " bytes"))⟩
    | none => ⟨arrived, .ok ()⟩
  | .error failure :: _, arrived => ⟨arrived, .error failure⟩
  | .ok data :: rest, arrived =>
    match declared.filter (· < arrived.length + data.length) with
    | some limit => ⟨arrived, .error (.body ("body exceeds declared length " ++ toString limit))⟩
    | none => intake declared rest (arrived ++ data)

section Taking

variable {declared : Option Nat} {frames : List (Except Failure Bytes)} {arrived : Bytes}

theorem le_of_filter_eq_none {n : Nat} (h : declared.filter (· < n) = none) :
    ∀ length, declared = some length → n ≤ length := by
  intro length hlength
  have hle := Option.filter_eq_none_iff.mp h length hlength
  rwa [decide_eq_true_eq, Nat.not_lt] at hle

/-- What is taken in is a beginning of what comes before the first frame that fails. -/
theorem intake_bytes_prefix (declared : Option Nat) (frames : List (Except Failure Bytes))
    (arrived : Bytes) : (intake declared frames arrived).bytes <+:
      arrived ++ bytesOf (frames.takeWhile Except.isOk) := by
  induction frames generalizing arrived with
  | nil =>
    unfold intake
    split <;> exact List.prefix_append _ _
  | cons frame frames ih =>
    cases frame with
    | error failure => exact List.prefix_append _ _
    | ok data =>
      unfold intake
      split
      · exact List.prefix_append _ _
      · have hmore := ih (arrived ++ data)
        rwa [List.append_assoc] at hmore

/-- Never more is taken in than was declared. -/
theorem intake_within (h : ∀ length, declared = some length → arrived.length ≤ length) :
    ∀ length, declared = some length →
      (intake declared frames arrived).bytes.length ≤ length := by
  induction frames generalizing arrived with
  | nil =>
    unfold intake
    split <;> exact h
  | cons frame frames ih =>
    cases frame with
    | error failure => exact h
    | ok data =>
      unfold intake
      split
      · exact h
      · next hfits =>
        refine ih fun length hlength => ?_
        rw [List.length_append]
        exact le_of_filter_eq_none hfits length hlength

/-- The body is taken in to its end if no frame fails and it has the declared length. -/
theorem intake_ending (h : ∀ length, declared = some length → arrived.length ≤ length) :
    (intake declared frames arrived).ending = .ok () ↔
      (∀ frame ∈ frames, frame.isOk)
        ∧ ∀ length, declared = some length → length = (arrived ++ bytesOf frames).length := by
  induction frames generalizing arrived with
  | nil =>
    have hall : arrived ++ bytesOf [] = arrived := List.append_nil _
    rw [hall]
    unfold intake
    split
    · next limit hfilter =>
      obtain ⟨hlimit, hshort⟩ := Option.filter_eq_some_iff.mp hfilter
      rw [decide_eq_true_eq] at hshort
      refine ⟨nofun, fun hends => ?_⟩
      have hlength := hends.2 limit hlimit
      omega
    · next hfilter =>
      refine ⟨fun _ => ⟨nofun, fun length hlength => ?_⟩, fun _ => rfl⟩
      have hle := Option.filter_eq_none_iff.mp hfilter length hlength
      rw [decide_eq_true_eq, Nat.not_lt] at hle
      exact Nat.le_antisymm hle (h length hlength)
  | cons frame frames ih =>
    cases frame with
    | error failure =>
      refine ⟨nofun, fun hends => ?_⟩
      cases hends.1 _ List.mem_cons_self
    | ok data =>
      have hall : arrived ++ bytesOf (.ok data :: frames) = arrived ++ data ++ bytesOf frames :=
        (List.append_assoc _ _ _).symm
      rw [hall, List.forall_mem_cons]
      unfold intake
      split
      · next limit hfilter =>
        obtain ⟨hlimit, hlong⟩ := Option.filter_eq_some_iff.mp hfilter
        rw [decide_eq_true_eq] at hlong
        refine ⟨nofun, fun hends => ?_⟩
        have hlength := hends.2 limit hlimit
        rw [List.length_append, List.length_append] at hlength
        omega
      · next hfilter =>
        have hfits : ∀ length, declared = some length → (arrived ++ data).length ≤ length := by
          intro length hlength
          rw [List.length_append]
          exact le_of_filter_eq_none hfilter length hlength
        rw [ih hfits]
        exact and_congr_left fun _ => (and_iff_right rfl).symm

/-- Then all of its bytes are taken in. -/
theorem intake_bytes (h : (intake declared frames arrived).ending = .ok ()) :
    (intake declared frames arrived).bytes = arrived ++ bytesOf frames := by
  induction frames generalizing arrived with
  | nil =>
    rw [intake] at h ⊢
    split at h
    · cases h
    · exact (List.append_nil _).symm
  | cons frame frames ih =>
    cases frame with
    | error failure => cases h
    | ok data =>
      rw [intake] at h ⊢
      split at h
      · cases h
      · rw [ih h]
        exact List.append_assoc _ _ _

end Taking

/-! ## All at once -/

theorem writeChunks_append (key : String) (chunks more : List Bytes) (offset : Nat) :
    writeChunks key (chunks ++ more) offset =
      writeChunks key chunks offset >>= writeChunks key more := by
  induction chunks generalizing offset with
  | nil => rw [List.nil_append, writeChunks, pure_bind]
  | cons chunk chunks ih =>
    rw [List.cons_append, writeChunks, writeChunks, bind_assoc]
    simp only [ih]

theorem receive_ok {g : Progress} (received : Nat) (h : g.received = received)
    (declared : Option Nat) (data : Bytes) (frames : List (Except Failure Bytes)) :
    receive key c declared (.ok data :: frames) g =
      match declared.filter (· < received + data.length) with
      | some limit => throw (.body ("body exceeds declared length " ++ toString limit))
      | none => writeChunks key (cut c (g.waiting ++ data)).1 g.written >>= fun written =>
        receive key c declared frames ⟨received + data.length, written,
          g.chunks + (cut c (g.waiting ++ data)).1.length, (cut c (g.waiting ++ data)).2⟩ := by
  subst h
  rfl

theorem finish_received {g : Progress} (received : Nat) (h : g.received = received)
    (declared : Option Nat) : finish key declared g =
      match declared.filter (received < ·) with
      | some limit =>
        throw (.body ("body ended after " ++ toString received ++ " of " ++ toString limit
          ++ " bytes"))
      | none =>
        if g.waiting ≠ [] ∨ g.chunks = 0 then do
          Session.write key g.waiting g.written
          return { g with
            written := g.written + g.waiting.length, chunks := g.chunks + 1, waiting := [] }
        else return g := by
  subst h
  rfl

/-- What waits is written at the end of the body. -/
theorem finish_eq (key : String) (declared : Option Nat) (arrived : Bytes) (replaces : Bool) :
    (do
      let written ← writeChunks key (cut c arrived).1 0
      let g ← finish key declared
        ⟨arrived.length, written, (cut c arrived).1.length, (cut c arrived).2⟩
      return ⟨g.received, g.chunks, replaces⟩ : SessionM Empty UploadReceipt) = (do
      let _ ← writeChunks key ((intake declared [] arrived).pieces c) 0
      ExceptT.mk (.done ((intake declared [] arrived).verdict c replaces))) := by
  have hfinish : ∀ written, finish key declared
      ⟨arrived.length, written, (cut c arrived).1.length, (cut c arrived).2⟩ = _ :=
    fun written => finish_received arrived.length rfl declared
  simp only [hfinish]
  unfold intake
  cases declared.filter (arrived.length < ·) with
  | some limit => rfl
  | none =>
    dsimp only
    show _ = (do
      let _ ← writeChunks key (pieces c arrived) 0
      return ⟨arrived.length, (pieces c arrived).length, replaces⟩ : SessionM Empty UploadReceipt)
    unfold pieces
    split
    · next hends =>
      rw [writeChunks_append, bind_assoc, List.length_append]
      simp only [writeChunks, bind_assoc, pure_bind, List.length_singleton]
    · next hwhole =>
      simp only [pure_bind]

/-- After some bytes, an upload goes on as if they had come at once. -/
theorem receive_eq (hc : 0 < c) (key : String) (declared : Option Nat) (replaces : Bool)
    (frames : List (Except Failure Bytes)) (arrived : Bytes) :
    (do
      let written ← writeChunks key (cut c arrived).1 0
      let g ← receive key c declared frames
        ⟨arrived.length, written, (cut c arrived).1.length, (cut c arrived).2⟩
      let g ← finish key declared g
      return ⟨g.received, g.chunks, replaces⟩ : SessionM Empty UploadReceipt) = (do
      let _ ← writeChunks key ((intake declared frames arrived).pieces c) 0
      ExceptT.mk (.done ((intake declared frames arrived).verdict c replaces))) := by
  -- induction on the frames: the chunks of what arrives later follow those that are there
  induction frames generalizing arrived with
  | nil =>
    simp only [receive, pure_bind]
    exact finish_eq key declared arrived replaces
  | cons frame frames ih =>
    cases frame with
    | error failure => rfl
    | ok data =>
      have hreceive : ∀ written, receive key c declared (.ok data :: frames)
          ⟨arrived.length, written, (cut c arrived).1.length, (cut c arrived).2⟩ = _ :=
        fun written => receive_ok arrived.length rfl declared data frames
      simp only [hreceive, intake]
      cases declared.filter (· < arrived.length + data.length) with
      | some limit => rfl
      | none =>
        simp only [bind_assoc]
        rw [← ih, cut_append hc arrived data, List.length_append, List.length_append,
          writeChunks_append, bind_assoc]

theorem bytesOf_map_ok (frames : List Bytes) : bytesOf (frames.map .ok) = frames.flatten := by
  induction frames with
  | nil => rfl
  | cons frame frames ih => exact congrArg (frame ++ ·) ih

/-- An upload does as if all that it takes in came at once. -/
theorem run_eq (chunkSize : Nat) (request : UploadRequest) : run chunkSize request = (do
    if request.replaces then clear request.key
    let taken := intake request.declared request.frames []
    let _ ← writeChunks request.key (taken.pieces (max chunkSize 1)) 0
    ExceptT.mk (.done (taken.verdict (max chunkSize 1) request.replaces))) := by
  have hempty : cut (max chunkSize 1) [] = ([], []) := by
    rw [cut, List.length_nil, Nat.zero_div]
    rfl
  obtain ⟨key, frames, declared, replaces⟩ := request
  have hreceive := receive_eq (Nat.le_max_right chunkSize 1) key declared replaces frames []
  rw [hempty] at hreceive
  simp only [writeChunks, pure_bind] at hreceive
  cases replaces with
  | false => exact hreceive
  | true => exact congrArg (clear key >>= ·) (funext fun _ => hreceive)

/-- The frames of a whole body do not matter. -/
theorem run_whole (chunkSize : Nat) (key : String) (frames : List Bytes) {declared : Option Nat}
    (replaces : Bool)
    (hdeclared : ∀ length, declared = some length → length = frames.flatten.length) :
    run chunkSize ⟨key, frames.map .ok, declared, replaces⟩ = (do
      if replaces then clear key
      let _ ← writeChunks key (pieces (max chunkSize 1) frames.flatten) 0
      return ⟨frames.flatten.length, pieceCount (max chunkSize 1) frames.flatten.length,
        replaces⟩) := by
  have hending : (intake declared (frames.map .ok) []).ending = .ok () := by
    refine (intake_ending fun _ _ => Nat.zero_le _).mpr ⟨?_, ?_⟩
    · intro frame hframe
      obtain ⟨data, -, rfl⟩ := List.mem_map.mp hframe
      rfl
    · rw [List.nil_append, bytesOf_map_ok]
      exact hdeclared
  have htaken : intake declared (frames.map .ok) [] = ⟨frames.flatten, .ok ()⟩ := by
    have hbytes := intake_bytes hending
    rw [List.nil_append, bytesOf_map_ok] at hbytes
    rw [← hbytes, ← hending]
  rw [run_eq]
  simp only [htaken, Intake.pieces, Intake.verdict, length_pieces (Nat.le_max_right chunkSize 1)]
  rfl

end Upload

end DavGateway
