import DavGateway.Proofs.Moves
import DavGateway.Transfer.Download

/-!
# Downloads read step by step

A download makes one read after the other, each where the chunks before it end, and hands out what
it brings. Whatever the reads bring, it ends after finitely many of them, with as many bytes as the
object was said to have or with one failure (`download_in_step`).
-/

namespace DavGateway

/-- A read is answered with no more bytes than it asks for. -/
def SessionCall.Fits : (call : SessionCall) → call.Answer → Prop
  | .operate (.read _ length _), .ok (.data data) => data.length ≤ length
  | _, _ => True

instance SessionCall.Fits.decidable : (call : SessionCall) → (answer : call.Answer) →
    Decidable (call.Fits answer)
  | .operate (.read _ length _), .ok (.data data) =>
    inferInstanceAs (Decidable (data.length ≤ length))
  | .operate (.read _ _ _), .ok .done | .operate (.read _ _ _), .ok (.stat _)
  | .operate (.read _ _ _), .error _ | .operate (.stat _), _ | .operate (.write _ _ _), _
  | .operate (.remove _), _ | .list, _ | .advance _, _ => .isTrue trivial

namespace Download

variable {c size arrived : Nat} {key : String} {σ : Type}
variable {answer : (call : SessionCall) → StateM σ call.Answer} {s : σ}

/-- The bytes that a read brings, or its failure. -/
def brought : Outcome → Except Failure Bytes
  | .ok (.data bytes) => .ok bytes
  | .ok reply => .error (Session.unexpected "read" reply)
  | .error failure => .error failure

/-- The read that is made when so many bytes have arrived. -/
def nextRead (c : Nat) (key : String) (size arrived : Nat) : Operation :=
  .read key (min (size - arrived) c) arrived

/-- A download goes on with a read until all bytes have arrived. -/
theorem chunksFrom_run (c : Nat) (key : String) (size arrived : Nat) :
    (chunksFrom c key size arrived).run =
      if arrived < size then .ask (.operate (nextRead c key size arrived)) fun outcome =>
        match brought outcome with
        | .error failure => .done (.error failure)
        | .ok data =>
          if data.length = 0 then .done (.error (.shortRead key (size - arrived)))
          else .emit data (chunksFrom c key size (arrived + data.length)).run
      else .done (.ok ()) := by
  rw [chunksFrom]
  split
  · show Flow.ask (SessionCall.operate (nextRead c key size arrived)) _ = _
    congr 1
    funext outcome
    match outcome with
    | .error failure => rfl
    | .ok .done => rfl
    | .ok (.stat stat) => rfl
    | .ok (.data data) =>
      show ExceptT.run (if data.length = 0 then _ else _) = if data.length = 0 then _ else _
      split <;> rfl
  · rfl

/-! ## The course of a download -/

/-- The moves with which a chunk is read and handed out, when so many bytes have arrived before. -/
def portion (c : Nat) (key : String) (size arrived : Nat) (chunk : Bytes) :
    List (Move SessionCall SessionCall.Answer Bytes) :=
  [.asked (.operate (nextRead c key size arrived)) (.ok (.data chunk)), .handed chunk]

/-- The moves with which chunks are handed out, one after the other. -/
def portions (c : Nat) (key : String) (size : Nat) :
    Nat → List Bytes → List (Move SessionCall SessionCall.Answer Bytes)
  | _, [] => []
  | arrived, chunk :: rest =>
    portion c key size arrived chunk ++ portions c key size (arrived + chunk.length) rest

/-- How a download ends when so many bytes have arrived: with all of them, or with one more read,
which fails or brings nothing. -/
inductive Ends (c : Nat) (key : String) (size arrived : Nat) :
    Except Failure Unit → List (Move SessionCall SessionCall.Answer Bytes) → Prop
  | whole (h : arrived = size) : Ends c key size arrived (.ok ()) []
  | failed {outcome : Outcome} {failure : Failure} (h : arrived < size)
    (houtcome : brought outcome = .error failure) :
    Ends c key size arrived (.error failure)
      [.asked (.operate (nextRead c key size arrived)) outcome]
  | short (h : arrived < size) :
    Ends c key size arrived (.error (.shortRead key (size - arrived)))
      [.asked (.operate (nextRead c key size arrived)) (.ok (.data []))]

/-- The course of a download from where so many bytes have arrived. -/
structure Course (c : Nat) (key : String) (size arrived : Nat) (chunks : List Bytes)
    (result : Except Failure Unit) (moves : List (Move SessionCall SessionCall.Answer Bytes)) :
    Prop where
  nonempty : ∀ chunk ∈ chunks, chunk ≠ []
  within : arrived + chunks.flatten.length ≤ size
  moves : ∃ last, moves = portions c key size arrived chunks ++ last
    ∧ Ends c key size (arrived + chunks.flatten.length) result last

theorem Course.of_ends {result : Except Failure Unit}
    {last : List (Move SessionCall SessionCall.Answer Bytes)} (hle : arrived ≤ size)
    (h : Ends c key size arrived result last) : Course c key size arrived [] result last :=
  ⟨nofun, hle, last, rfl, h⟩

theorem Course.hand {chunk : Bytes} {chunks : List Bytes} {result : Except Failure Unit}
    {moves : List (Move SessionCall SessionCall.Answer Bytes)} (hchunk : chunk ≠ [])
    (h : Course c key size (arrived + chunk.length) chunks result moves) :
    Course c key size arrived (chunk :: chunks) result
      (portion c key size arrived chunk ++ moves) := by
  have hlength : arrived + (chunk :: chunks).flatten.length =
      arrived + chunk.length + chunks.flatten.length := by
    rw [List.flatten_cons, List.length_append, Nat.add_assoc]
  obtain ⟨last, hmoves, hends⟩ := h.moves
  refine ⟨List.forall_mem_cons.mpr ⟨hchunk, h.nonempty⟩, hlength ▸ h.within, last, ?_, ?_⟩
  · rw [hmoves, portions, List.append_assoc]
  · rw [hlength]
    exact hends

theorem brought_eq_ok {outcome : Outcome} {data : Bytes} (h : brought outcome = .ok data) :
    outcome = .ok (.data data) := by
  match outcome with
  | .ok (.data bytes) =>
    cases h
    rfl

/-- Whatever the reads of it bring, a download takes its course. -/
theorem chunksFrom_course (hc : 1 ≤ c) (hle : arrived ≤ size)
    (hfits : (chunksFrom c key size arrived).run.Along
      (fun call s => call.Fits (answer call s).1) answer s) :
    Course c key size arrived ((chunksFrom c key size arrived).run.collect answer s).1.1
      ((chunksFrom c key size arrived).run.collect answer s).1.2
      ((chunksFrom c key size arrived).run.moves answer s) := by
  -- each chunk brings the end closer
  induction hleft : size - arrived using Nat.strongRecOn generalizing arrived s with
  | ind left ih =>
    rw [chunksFrom_run] at hfits ⊢
    by_cases hmore : arrived < size
    · rw [if_pos hmore] at hfits ⊢
      cases hanswer : answer (.operate (nextRead c key size arrived)) s with
      | mk outcome s' =>
        obtain ⟨hfit, hrest⟩ := hfits
        rw [hanswer] at hfit hrest
        rw [Flow.moves_of_answer hanswer, Flow.collect_of_answer hanswer]
        cases hbrought : brought outcome with
        | error failure => exact .of_ends hle (.failed hmore hbrought)
        | ok data =>
          obtain rfl := brought_eq_ok hbrought
          simp only [brought] at hrest ⊢
          have hlength : data.length ≤ min (size - arrived) c := hfit
          by_cases hdata : data.length = 0
          · obtain rfl := List.eq_nil_of_length_eq_zero hdata
            exact .of_ends hle (.short hmore)
          · rw [if_neg hdata] at hrest ⊢
            have hne : data ≠ [] := fun hnil => hdata (congrArg List.length hnil)
            exact (ih (size - (arrived + data.length)) (by omega) (by omega) hrest rfl).hand hne
    · rw [if_neg hmore]
      exact .of_ends hle (.whole (by omega))

/-! ## What the course says -/

/-- The calls of a download are reads of its object, each of at least one byte and within the
size. -/
def Reads (c : Nat) (key : String) (size : Nat) (call : SessionCall) : Prop :=
  ∃ length offset, call = .operate (.read key length offset) ∧ 1 ≤ length ∧ length ≤ c
    ∧ offset + length ≤ size

theorem reads_next (hc : 1 ≤ c) (h : arrived < size) :
    Reads c key size (.operate (nextRead c key size arrived)) :=
  ⟨_, _, rfl, by omega, Nat.min_le_right .., by omega⟩

/-- Each chunk that is handed out was asked for where the chunks before it end. -/
theorem portions_eq (c : Nat) (key : String) (size arrived : Nat) (chunks : List Bytes) :
    portions c key size arrived chunks = chunks.zipIdx.flatMap fun (chunk, i) =>
      portion c key size (arrived + (chunks.take i).flatten.length) chunk := by
  induction chunks generalizing arrived with
  | nil => rfl
  | cons chunk rest ih =>
    rw [portions, ih, List.zipIdx_cons', List.flatMap_cons, List.flatMap_map]
    simp only [Prod.map_snd, Prod.map_fst, List.take_succ_cons, List.flatten_cons,
      List.length_append, Nat.add_assoc]
    rfl

theorem calls_portions (key : String) {chunks : List Bytes} (hc : 1 ≤ c)
    (hne : ∀ chunk ∈ chunks, chunk ≠ []) (hle : arrived + chunks.flatten.length ≤ size) :
    (∀ call ∈ (portions c key size arrived chunks).filterMap Move.call?, Reads c key size call)
      ∧ arrived + ((portions c key size arrived chunks).filterMap Move.call?).length ≤
        arrived + chunks.flatten.length := by
  induction chunks generalizing arrived with
  | nil => exact ⟨nofun, Nat.le_refl _⟩
  | cons chunk rest ih =>
    obtain ⟨hchunk, hrest⟩ := List.forall_mem_cons.mp hne
    have hpositive : 1 ≤ chunk.length := List.length_pos_iff.mpr hchunk
    rw [List.flatten_cons, List.length_append] at hle ⊢
    have hrestLe : arrived + chunk.length + rest.flatten.length ≤ size := by omega
    obtain ⟨hreads, hcount⟩ := ih hrest hrestLe
    have hcalls : (portions c key size arrived (chunk :: rest)).filterMap Move.call? =
        .operate (nextRead c key size arrived) ::
          (portions c key size (arrived + chunk.length) rest).filterMap Move.call? := rfl
    rw [hcalls, List.length_cons]
    exact ⟨List.forall_mem_cons.mpr ⟨reads_next hc (by omega), hreads⟩, by omega⟩

/-- There is a read for each chunk, and at most one more. -/
theorem Course.calls {chunks : List Bytes} {result : Except Failure Unit}
    {moves : List (Move SessionCall SessionCall.Answer Bytes)} (hc : 1 ≤ c)
    (h : Course c key size arrived chunks result moves) :
    (∀ call ∈ moves.filterMap Move.call?, Reads c key size call)
      ∧ arrived + (moves.filterMap Move.call?).length ≤ size := by
  obtain ⟨last, hmoves, hends⟩ := h.moves
  obtain ⟨hreads, hcount⟩ := calls_portions key hc h.nonempty h.within
  rw [hmoves, List.filterMap_append, List.forall_mem_append, List.length_append]
  cases hends with
  | whole hwhole =>
    refine ⟨⟨hreads, nofun⟩, ?_⟩
    simp only [List.filterMap_nil, List.length_nil]
    omega
  | failed hless _ | short hless =>
    refine ⟨⟨hreads, ?_⟩, ?_⟩
    · intro call hcall
      rw [List.mem_singleton.mp hcall]
      exact reads_next hc hless
    · show arrived + (_ + 1) ≤ size
      omega

end Download

open Download

/-- Whatever a store answers to its reads, as long as none brings more than was asked for, a
download makes one read after the other, each where the chunks before it end, and hands out what it
brings before it makes the next. After at most as many reads as there are bytes it ends: with all
bytes, or with one failure before that. -/
theorem download_in_step (chunkSize : Nat) (key : String) (size : Nat) {σ : Type}
    (answer : (call : SessionCall) → StateM σ call.Answer) (s : σ)
    (hfits : (run chunkSize key size).run.Along (fun call s => call.Fits (answer call s).1)
      answer s) :
    let c := max chunkSize 1
    let download := (run chunkSize key size).run
    let moves := download.moves answer s
    let chunks := (download.collect answer s).1.1
    let result := (download.collect answer s).1.2
    (∃ last, moves = (chunks.zipIdx.flatMap fun (chunk, i) =>
          portion c key size (chunks.take i).flatten.length chunk) ++ last
        ∧ Ends c key size chunks.flatten.length result last)
      ∧ (∀ chunk ∈ chunks, chunk ≠ [])
      ∧ chunks.flatten.length ≤ size
      ∧ (∀ call ∈ moves.filterMap Move.call?, Reads c key size call)
      ∧ (moves.filterMap Move.call?).length ≤ size := by
  intro c download moves chunks result
  have hc : 1 ≤ c := Nat.le_max_right chunkSize 1
  have hcourse : Course c key size 0 chunks result moves :=
    chunksFrom_course hc (Nat.zero_le size) hfits
  obtain ⟨hreads, hcount⟩ := hcourse.calls hc
  obtain ⟨last, hmoves, hends⟩ := hcourse.moves
  have hwithin := hcourse.within
  rw [portions_eq] at hmoves
  simp only [Nat.zero_add] at hmoves hends hcount hwithin
  exact ⟨⟨last, hmoves, hends⟩, hcourse.nonempty, hwithin, hreads, hcount⟩

/-- Answers one call after the other as it is noted, and calls that are not noted with nothing. -/
def noted (call : SessionCall) : StateM (List Outcome) call.Answer := fun outcomes =>
  match call with
  | .operate _ => (outcomes.headD (.ok .done), outcomes.tail)
  | .list => (.ok [], outcomes)
  | .advance _ => (.ok (), outcomes)

/-- Of ten bytes, three short reads bring six, and then the object has ended. -/
theorem download_in_step_short :
    let outcomes : List Outcome :=
      [.ok (.data [1, 2, 3, 4]), .ok (.data [5]), .ok (.data [6]), .ok (.data [])]
    let download := (run 4 "k" 10).run
    download.Along (fun call s => call.Fits (noted call s).1) noted outcomes
      ∧ (download.collect noted outcomes).1 =
        ([[1, 2, 3, 4], [5], [6]], .error (.shortRead "k" 4))
      ∧ ∀ call ∈ (download.moves noted outcomes).filterMap Move.call?, Reads 4 "k" 10 call := by
  intro outcomes download
  have hfits : download.Along (fun call s => call.Fits (noted call s).1) noted outcomes := by
    decide +kernel
  refine ⟨hfits, by decide +kernel, ?_⟩
  exact (download_in_step 4 "k" 10 noted outcomes hfits).2.2.2.1

end DavGateway
