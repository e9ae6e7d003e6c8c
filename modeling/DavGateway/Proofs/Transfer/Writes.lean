import DavGateway.Proofs.Transfer.Intake

/-!
# The calls of an upload

An upload removes its object if it replaces it (`Upload.clearing`), and writes its pieces one behind
the other until one of the writes fails (`Upload.writeOut`). In a store that is orderly, the object
then holds the pieces that were written (`Upload.Lays`). If nothing fails, an upload of any frames
with a body in them makes the calls that the body alone decides, and stores it
(`upload_in_even_pieces`).
-/

namespace DavGateway

/-- The number of writes that were carried out. -/
def chunksWritten (events : List (Sigma SessionCall.Answer)) : Nat := events.countP fun
  | ⟨.operate (.write key data offset), outcome⟩ =>
    ((SessionCall.operate (.write key data offset)).failure? outcome).isNone
  | _ => false

namespace Upload

variable {σ : Type} {answer : (call : SessionCall) → StateM σ call.Answer} {s : σ}
variable {objects : σ → String → Option Bytes} {key : String} {c : Nat}
variable {chunk : Bytes} {chunks : List Bytes} {offset : Nat}
variable {verdict : Except Failure UploadReceipt}

/-! ## The flow of an upload -/

/-- The calls that write chunks one behind the other. -/
def writes (key : String) : List Bytes → Nat → List SessionCall
  | [], _ => []
  | chunk :: rest, offset =>
    .operate (.write key chunk offset) :: writes key rest (offset + chunk.length)

/-- Writes chunks one behind the other, and ends with a verdict. A write that fails ends it before
that. -/
def writeOut (key : String) (verdict : Except Failure UploadReceipt) :
    List Bytes → Nat → SessionFlow Empty (Except Failure UploadReceipt)
  | [], _ => .done verdict
  | chunk :: rest, offset => .ask (.operate (.write key chunk offset)) fun
    | .ok _ => writeOut key verdict rest (offset + chunk.length)
    | .error failure => .done (.error failure)

/-- Removes an object if it is to be replaced, and goes on if it is gone or was not there. -/
def clearing (key : String) (replaces : Bool)
    (rest : SessionFlow Empty (Except Failure UploadReceipt)) :
    SessionFlow Empty (Except Failure UploadReceipt) :=
  if replaces then .ask (.operate (.remove key)) fun
    | .ok _ => rest
    | .error failure => if failure.isNotFound then rest else .done (.error failure)
  else rest

theorem writeChunks_run (key : String) (verdict : Except Failure UploadReceipt)
    (chunks : List Bytes) (offset : Nat) :
    (do
      let _ ← writeChunks key chunks offset
      ExceptT.mk (.done verdict) : SessionM Empty UploadReceipt).run =
        writeOut key verdict chunks offset := by
  induction chunks generalizing offset with
  | nil => rfl
  | cons chunk chunks ih =>
    refine congrArg (Flow.ask _) (funext fun outcome => ?_)
    match outcome with
    | .ok reply => exact ih (offset + chunk.length)
    | .error failure => rfl

theorem clear_run (key : String) (replaces : Bool) (x : SessionM Empty UploadReceipt) :
    (do
      if replaces then clear key
      x : SessionM Empty UploadReceipt).run = clearing key replaces x.run := by
  cases replaces with
  | false => rfl
  | true =>
    refine congrArg (Flow.ask _) (funext fun outcome => ?_)
    match outcome with
    | .ok reply => rfl
    | .error failure =>
      show Flow.bind (ExceptT.run (if failure.isNotFound then pure () else throw failure)) _ =
        if failure.isNotFound then x.run else .done (.error failure)
      split <;> rfl

/-- An upload removes its object and writes the pieces of what it takes in. -/
theorem run_flow (chunkSize : Nat) (request : UploadRequest) :
    (run chunkSize request).run = clearing request.key request.replaces
      (writeOut request.key
        ((intake request.declared request.frames []).verdict (max chunkSize 1) request.replaces)
        ((intake request.declared request.frames []).pieces (max chunkSize 1)) 0) := by
  rw [run_eq, clear_run, writeChunks_run]

theorem run_whole_flow (chunkSize : Nat) (key : String) (frames : List Bytes)
    {declared : Option Nat} (replaces : Bool)
    (hdeclared : ∀ length, declared = some length → length = frames.flatten.length) :
    (run chunkSize ⟨key, frames.map .ok, declared, replaces⟩).run =
      clearing key replaces (writeOut key
        (.ok ⟨frames.flatten.length, pieceCount (max chunkSize 1) frames.flatten.length, replaces⟩)
        (pieces (max chunkSize 1) frames.flatten) 0) := by
  rw [run_whole chunkSize key frames replaces hdeclared, clear_run]
  exact congrArg (clearing key replaces) (writeChunks_run key _ _ 0)

/-! ## Chunks that are written -/

theorem writes_append (key : String) (chunks more : List Bytes) (offset : Nat) :
    writes key (chunks ++ more) offset =
      writes key chunks offset ++ writes key more (offset + chunks.flatten.length) := by
  induction chunks generalizing offset with
  | nil => rfl
  | cons chunk chunks ih =>
    rw [List.cons_append, writes, ih, List.flatten_cons, List.length_append, Nat.add_assoc]
    rfl

/-- The pieces of a body are written where they are in it. -/
theorem writes_pieces (hc : 0 < c) (key : String) (body : Bytes) :
    writes key (pieces c body) 0 = (List.range (pieceCount c body.length)).map fun i =>
      .operate (.write key (body.slice (i * c) c) (i * c)) := by
  rw [pieces_eq hc]
  -- induction on how many pieces are there, each of which begins in the body
  have hslices : ∀ count, count ≤ pieceCount c body.length →
      writes key ((List.range count).map fun i => body.slice (i * c) c) 0 =
        (List.range count).map fun i => .operate (.write key (body.slice (i * c) c) (i * c)) := by
    intro count
    induction count with
    | zero => exact fun _ => rfl
    | succ count ih =>
      intro hcount
      have hbegins := mul_le_of_lt_pieceCount hc hcount
      rw [List.range_succ, List.map_append, writes_append, ih (Nat.le_of_succ_le hcount),
        slices_flatten, List.length_take_of_le hbegins, Nat.zero_add, List.map_append]
      rfl
  exact hslices _ (Nat.le_refl _)

/-- The objects after chunks were written one behind the other. -/
def laid (before : String → Option Bytes) (key : String) (offset : Nat) (chunks : List Bytes) :
    String → Option Bytes :=
  if chunks = [] then before
  else Function.update before key (some (((before key).getD []).overlay offset chunks.flatten))

theorem laid_cons (before : String → Option Bytes) (key : String) (offset : Nat) (chunk : Bytes)
    (chunks : List Bytes) :
    laid (Function.update before key (some (((before key).getD []).overlay offset chunk))) key
        (offset + chunk.length) chunks =
      laid before key offset (chunk :: chunks) := by
  unfold laid
  rw [if_neg (List.cons_ne_nil chunk chunks), List.flatten_cons]
  split
  · next hnone => rw [hnone, List.flatten_nil, List.append_nil]
  · rw [Function.update_self, Function.update_idem, Option.getD_some, Bytes.overlay_overlay]

/-- What a run does that writes chunks one behind the other, and what it makes of the objects. It
stops at the first write that fails. -/
structure Lays (key : String) (chunks : List Bytes) (offset : Nat)
    (verdict : Except Failure UploadReceipt) (before after : String → Option Bytes)
    (events : List (Sigma SessionCall.Answer)) (result : Except Failure UploadReceipt) : Prop where
  writes : ∀ event ∈ events, ∃ data offset, event.1 = .operate (.write key data offset)
  bound : chunksWritten events ≤ chunks.length
  objects : after = laid before key offset (chunks.take (chunksWritten events))
  complete : (∀ event ∈ events, event.1.failure? event.2 = none) ↔
    chunksWritten events = chunks.length
  ending : if chunksWritten events = chunks.length then result = verdict
    else ∃ failure, result = .error failure

section Laying

variable {before after : String → Option Bytes} {events : List (Sigma SessionCall.Answer)}
variable {result : Except Failure UploadReceipt}

/-- A chunk that is written is laid over the object, and the next ones behind it. -/
theorem Lays.write {reply : Reply}
    (h : Lays key chunks (offset + chunk.length) verdict
      (Function.update before key (some (((before key).getD []).overlay offset chunk))) after events
      result) :
    Lays key (chunk :: chunks) offset verdict before after
      (⟨.operate (.write key chunk offset), .ok reply⟩ :: events) result := by
  have hcount : chunksWritten (⟨.operate (.write key chunk offset), .ok reply⟩ :: events) =
      chunksWritten events + 1 := List.countP_cons_of_pos rfl
  constructor
  · exact List.forall_mem_cons.mpr ⟨⟨chunk, offset, rfl⟩, h.writes⟩
  · rw [hcount]
    exact Nat.succ_le_succ h.bound
  · rw [hcount, List.take_succ_cons, ← laid_cons]
    exact h.objects
  · rw [List.forall_mem_cons, h.complete, hcount, List.length_cons, Nat.add_right_cancel_iff]
    exact and_iff_right rfl
  · simp only [hcount, List.length_cons, Nat.add_right_cancel_iff]
    exact h.ending

/-- A write that fails is the last one. -/
theorem Lays.stop (failure : Failure) :
    Lays key (chunk :: chunks) offset verdict before before
      [⟨.operate (.write key chunk offset), .error failure⟩] (.error failure) := by
  refine ⟨?_, Nat.zero_le _, rfl, ⟨fun h => ?_, nofun⟩, failure, rfl⟩
  · exact List.forall_mem_cons.mpr ⟨⟨chunk, offset, rfl⟩, nofun⟩
  · cases h _ List.mem_cons_self

end Laying

theorem writeOut_lays (h : (writeOut key verdict chunks offset).Along
      (SessionCall.Orderly objects answer) answer s) :
    Lays key chunks offset verdict (objects s)
      (objects ((writeOut key verdict chunks offset).run answer s).2)
      ((writeOut key verdict chunks offset).events answer s)
      ((writeOut key verdict chunks offset).run answer s).1 := by
  induction chunks generalizing offset s with
  | nil => exact ⟨nofun, Nat.le_refl _, rfl, ⟨fun _ => rfl, fun _ => nofun⟩, rfl⟩
  | cons chunk chunks ih =>
    unfold writeOut at h ⊢
    cases hfirst : answer (.operate (.write key chunk offset)) s with
    | mk outcome s' =>
      rw [Flow.along_of_answer hfirst] at h
      rw [Flow.events_of_answer hfirst, Flow.run_of_answer hfirst]
      obtain ⟨⟨hcarried, hfailed⟩, hrest⟩ := h
      rw [hfirst] at hcarried hfailed
      match outcome with
      | .ok reply =>
        have hlays := ih hrest
        rw [hcarried rfl] at hlays
        exact hlays.write
      | .error failure =>
        have hsame : objects s' = objects s := hfailed failure rfl
        show Lays key (chunk :: chunks) offset verdict (objects s) (objects s') _ _
        rw [hsame]
        exact .stop failure

/-! ## The object is cleared -/

section Clearing

variable {rest : SessionFlow Empty (Except Failure UploadReceipt)} {replaces : Bool}

/-- What comes of the removal with which an upload begins: none is made, or the object is removed,
or there is said to be none, or the upload ends there. -/
inductive Cleared (objects : σ → String → Option Bytes)
    (answer : (call : SessionCall) → StateM σ call.Answer) (key : String)
    (rest : SessionFlow Empty (Except Failure UploadReceipt)) (s : σ) :
    Bool → List (Sigma SessionCall.Answer) → Except Failure UploadReceipt × σ → Prop
  | skipped (halong : rest.Along (SessionCall.Orderly objects answer) answer s) :
    Cleared objects answer key rest s false (rest.events answer s) (rest.run answer s)
  | removed {reply : Reply} {s' : σ} (hobjects : objects s' = Function.update (objects s) key none)
    (halong : rest.Along (SessionCall.Orderly objects answer) answer s') :
    Cleared objects answer key rest s true
      (⟨.operate (.remove key), .ok reply⟩ :: rest.events answer s') (rest.run answer s')
  | missing {failure : Failure} {s' : σ} (hmissing : failure.isNotFound = true)
    (hobjects : objects s' = objects s)
    (halong : rest.Along (SessionCall.Orderly objects answer) answer s') :
    Cleared objects answer key rest s true
      (⟨.operate (.remove key), .error failure⟩ :: rest.events answer s') (rest.run answer s')
  | refused {failure : Failure} {s' : σ} (hrefused : failure.isNotFound = false)
    (hobjects : objects s' = objects s) :
    Cleared objects answer key rest s true [⟨.operate (.remove key), .error failure⟩]
      (.error failure, s')

theorem clearing_cleared (h : (clearing key replaces rest).Along
      (SessionCall.Orderly objects answer) answer s) :
    Cleared objects answer key rest s replaces ((clearing key replaces rest).events answer s)
      ((clearing key replaces rest).run answer s) := by
  cases replaces with
  | false => exact .skipped h
  | true =>
    unfold clearing at h ⊢
    rw [if_pos rfl] at h ⊢
    cases hremove : answer (.operate (.remove key)) s with
    | mk outcome s' =>
      rw [Flow.along_of_answer hremove] at h
      rw [Flow.events_of_answer hremove, Flow.run_of_answer hremove]
      obtain ⟨⟨hcarried, hfailed⟩, hrest⟩ := h
      rw [hremove] at hcarried hfailed
      match outcome with
      | .ok reply => exact .removed (hcarried rfl) hrest
      | .error failure =>
        have hsame : objects s' = objects s := hfailed failure rfl
        cases hmissing : failure.isNotFound with
        | true =>
          simp only [hmissing, if_true] at hrest ⊢
          exact .missing hmissing hsame hrest
        | false =>
          simp only [hmissing, Bool.false_eq_true, if_false]
          exact .refused hmissing hsame

end Clearing

/-! ## Uploads that are not disturbed -/

section Undisturbed

variable {rest : SessionFlow Empty (Except Failure UploadReceipt)} {replaces : Bool}

/-- If all calls succeed, every chunk is written. -/
theorem writeOut_calls (h : (writeOut key verdict chunks offset).Succeeds answer s) :
    ((writeOut key verdict chunks offset).events answer s).map Sigma.fst =
        writes key chunks offset
      ∧ ((writeOut key verdict chunks offset).run answer s).1 = verdict := by
  induction chunks generalizing offset s with
  | nil => exact ⟨rfl, rfl⟩
  | cons chunk chunks ih =>
    unfold Flow.Succeeds at h
    unfold writeOut at h ⊢
    cases hfirst : answer (.operate (.write key chunk offset)) s with
    | mk outcome s' =>
      rw [Flow.events_of_answer hfirst, List.forall_mem_cons] at h
      rw [Flow.events_of_answer hfirst, Flow.run_of_answer hfirst]
      match outcome with
      | .ok reply =>
        obtain ⟨hcalls, hresult⟩ := ih h.2
        exact ⟨congrArg (_ :: ·) hcalls, hresult⟩
      | .error failure => cases h.1

/-- If all calls succeed, the removal is followed by the rest. -/
theorem clearing_calls (h : (clearing key replaces rest).Succeeds answer s) :
    ∃ s', rest.Succeeds answer s'
      ∧ ((clearing key replaces rest).events answer s).map Sigma.fst =
        (if replaces then [.operate (.remove key)] else [])
          ++ (rest.events answer s').map Sigma.fst
      ∧ (clearing key replaces rest).run answer s = rest.run answer s' := by
  cases replaces with
  | false => exact ⟨s, h, rfl, rfl⟩
  | true =>
    unfold Flow.Succeeds at h
    unfold clearing at h ⊢
    simp only [if_true] at h ⊢
    cases hremove : answer (.operate (.remove key)) s with
    | mk outcome s' =>
      rw [Flow.events_of_answer hremove, List.forall_mem_cons] at h
      rw [Flow.events_of_answer hremove, Flow.run_of_answer hremove]
      match outcome with
      | .ok reply => exact ⟨s', h.2, rfl, rfl⟩
      | .error failure => cases h.1

/-- If all calls succeed, chunks that are laid over nothing are the object. -/
theorem writeOut_stores (hchunks : chunks ≠ []) (hnone : objects s key = none)
    (halong : (writeOut key verdict chunks 0).Along (SessionCall.Orderly objects answer) answer s)
    (h : (writeOut key verdict chunks 0).Succeeds answer s) :
    objects ((writeOut key verdict chunks 0).run answer s).2 =
      Function.update (objects s) key (some chunks.flatten) := by
  have hlays := writeOut_lays halong
  rw [hlays.objects, hlays.complete.mp h, List.take_length, laid, if_neg hchunks, hnone,
    Option.getD_none, Bytes.nil_overlay]

/-- If all calls succeed, the object holds the chunks and nothing else. -/
theorem clearing_stores (hchunks : chunks ≠ []) (hreplaces : replaces = (objects s key).isSome)
    (halong : (clearing key replaces (writeOut key verdict chunks 0)).Along
      (SessionCall.Orderly objects answer) answer s)
    (h : (clearing key replaces (writeOut key verdict chunks 0)).Succeeds answer s) :
    objects ((clearing key replaces (writeOut key verdict chunks 0)).run answer s).2 =
      Function.update (objects s) key (some chunks.flatten) := by
  have hcleared := clearing_cleared halong
  unfold Flow.Succeeds at h
  generalize (clearing key replaces (writeOut key verdict chunks 0)).events answer s = events at *
  generalize (clearing key replaces (writeOut key verdict chunks 0)).run answer s = ran at *
  cases hcleared with
  | skipped hrest =>
    have hnone := Option.not_isSome_iff_eq_none.mp (hreplaces ▸ Bool.false_ne_true)
    exact writeOut_stores hchunks hnone hrest h
  | removed hobjects hrest =>
    have hnone := (congrFun hobjects key).trans (Function.update_self key none (objects s))
    rw [writeOut_stores hchunks hnone hrest (List.forall_mem_cons.mp h).2, hobjects,
      Function.update_idem]
  | missing hmissing hobjects hrest => cases (List.forall_mem_cons.mp h).1
  | refused hrefused hobjects => cases (List.forall_mem_cons.mp h).1

variable {now : Int}

/-- A pool in memory accepts chunks under every valid key, as long as memory can hold them. -/
theorem writeOut_succeeds (hkey : Names.checkKey key = .ok ())
    (hsmall : offset + chunks.flatten.length < Text.signedLimit) (p : MemoryPool) :
    (writeOut key verdict chunks offset).Succeeds (MemoryPool.serve now) p := by
  induction chunks generalizing offset p with
  | nil => exact nofun
  | cons chunk chunks ih =>
    rw [List.flatten_cons, List.length_append, ← Nat.add_assoc] at hsmall
    have hwrite : p.write now key chunk offset = _ := MemoryPool.write_of_small hkey
      (Nat.lt_of_le_of_lt (Nat.le_add_right _ chunks.flatten.length) hsmall)
    have hfirst : MemoryPool.serve now (.operate (.write key chunk offset)) p =
        (.ok .done, (p.write now key chunk offset).2) := by
      simp only [MemoryPool.serve, MemoryPool.answer, MemoryPool.perform, hwrite]
      rfl
    unfold Flow.Succeeds writeOut
    rw [Flow.events_of_answer hfirst]
    exact List.forall_mem_cons.mpr ⟨rfl, ih hsmall _⟩

/-- An object that is there can be removed. -/
theorem clearing_succeeds {p : MemoryPool} (hreplaces : replaces = (p.content? key).isSome)
    (hrest : ∀ p, rest.Succeeds (MemoryPool.serve now) p) :
    (clearing key replaces rest).Succeeds (MemoryPool.serve now) p := by
  cases replaces with
  | false => exact hrest p
  | true =>
    have hcontains : p.objects.contains key = true := by
      rw [MemoryPool.content?, Option.isSome_map] at hreplaces
      exact hreplaces.symm
    have hremove : MemoryPool.serve now (.operate (.remove key)) p =
        (.ok .done, ⟨p.objects.erase key⟩) := by
      simp only [MemoryPool.serve, MemoryPool.answer, MemoryPool.perform, MemoryPool.remove,
        if_pos hcontains]
      rfl
    unfold Flow.Succeeds clearing
    rw [if_pos rfl, Flow.events_of_answer hremove]
    exact List.forall_mem_cons.mpr ⟨rfl, hrest _⟩

end Undisturbed

end Upload

open Upload

/-- An upload that is not disturbed depends on its body, and not on the frames of it. If all calls
succeed, it removes what it replaces, writes the body chunk by chunk, tells how many bytes and
chunks there were, and leaves the body as the object. All calls to a pool in memory do succeed if
the key is a key and memory can hold the body. -/
theorem upload_in_even_pieces (chunkSize : Nat) (key : String) (frames : List Bytes)
    (declared : Option Nat) (replaces : Bool)
    (hdeclared : ∀ length, declared = some length → length = frames.flatten.length) :
    let c := max chunkSize 1
    let body : Bytes := frames.flatten
    let count := max 1 ((body.length + c - 1) / c)
    let calls : List SessionCall := (if replaces then [.operate (.remove key)] else [])
      ++ (List.range count).map fun i => .operate (.write key (body.slice (i * c) c) (i * c))
    let upload := (run chunkSize ⟨key, frames.map .ok, declared, replaces⟩).run
    -- in any store
    (∀ {σ : Type} (answer : (call : SessionCall) → StateM σ call.Answer) (s : σ),
        upload.Succeeds answer s →
        (upload.run answer s).1 = .ok ⟨body.length, count, replaces⟩
          ∧ (upload.events answer s).map Sigma.fst = calls
          ∧ ∀ objects : σ → String → Option Bytes, replaces = (objects s key).isSome →
            upload.Along (SessionCall.Orderly objects answer) answer s →
            objects (upload.run answer s).2 = Function.update (objects s) key (some body))
      -- the sizes of the pieces
      ∧ (∀ i, i + 1 < count → (body.slice (i * c) c).length = c)
      ∧ (body.slice ((count - 1) * c) c).length =
        (if body.length = 0 then 0 else if c ∣ body.length then c else body.length % c)
      -- in a pool in memory
      ∧ (∀ (p : MemoryPool) (now : Int), replaces = (p.content? key).isSome →
        (Names.checkKey key = .ok () → body.length < Text.signedLimit →
            upload.Succeeds (MemoryPool.serve now) p)
          ∧ (upload.Succeeds (MemoryPool.serve now) p →
            (upload.run (MemoryPool.serve now) p).2.content? =
              Function.update p.content? key (some body)))
      -- other frames
      ∧ ∀ (frames' : List Bytes) (declared' : Option Nat), frames'.flatten = body →
        (∀ length, declared' = some length → length = body.length) →
        run chunkSize ⟨key, frames'.map .ok, declared', replaces⟩ =
          run chunkSize ⟨key, frames.map .ok, declared, replaces⟩ := by
  intro c body count calls upload
  have hc : 0 < c := Nat.le_max_right chunkSize 1
  have hupload : upload = clearing key replaces
      (writeOut key (.ok ⟨body.length, count, replaces⟩) (pieces c body) 0) :=
    run_whole_flow chunkSize key frames replaces hdeclared
  have hstores : ∀ {σ : Type} (answer : (call : SessionCall) → StateM σ call.Answer) (s : σ)
      (objects : σ → String → Option Bytes), upload.Succeeds answer s →
      replaces = (objects s key).isSome →
      upload.Along (SessionCall.Orderly objects answer) answer s →
      objects (upload.run answer s).2 = Function.update (objects s) key (some body) := by
    intro σ answer s objects hsucceeds hreplaces halong
    rw [hupload] at hsucceeds halong ⊢
    rw [clearing_stores (pieces_ne_nil c body) hreplaces halong hsucceeds, pieces_flatten]
  refine ⟨?_, fun i hi => length_slice_of_lt hc hi, length_last_slice hc body, ?_, ?_⟩
  · intro σ answer s hsucceeds
    have hcalls := clearing_calls (hupload ▸ hsucceeds)
    rw [← hupload] at hcalls
    obtain ⟨s', hrest, hcalls, hrun⟩ := hcalls
    obtain ⟨hwrites, hresult⟩ := writeOut_calls hrest
    refine ⟨?_, ?_, fun objects => hstores answer s objects hsucceeds⟩
    · rw [hrun, hresult]
    · rw [hcalls, hwrites, writes_pieces hc]
      rfl
  · intro p now hreplaces
    refine ⟨fun hkey hsmall => ?_, fun hsucceeds => ?_⟩
    · rw [hupload]
      refine clearing_succeeds hreplaces fun p => writeOut_succeeds hkey ?_ p
      rwa [pieces_flatten, Nat.zero_add]
    · exact hstores _ p MemoryPool.content? hsucceeds hreplaces
        (MemoryPool.orderly_of_succeeds hsucceeds)
  · intro frames' declared' hsame hdeclared'
    rw [run_whole chunkSize key frames replaces hdeclared,
      run_whole chunkSize key frames' replaces (hsame ▸ hdeclared'), hsame]

/-- A pool with an object of ten bytes. -/
def poolOfTen : MemoryPool :=
  ⟨(default : Shelf MemoryObject).set "k" ⟨[0, 1, 2, 3, 4, 5, 6, 7, 8, 9], 0⟩⟩

/-- Seven bytes in four frames replace the ten. -/
theorem upload_in_even_pieces_seven :
    let upload := (run 4 ⟨"k", ([[11, 12], [], [13, 14, 15], [16, 17]] : List Bytes).map .ok,
      some 7, true⟩).run
    (∀ length, some 7 = some length →
        length = ([[11, 12], [], [13, 14, 15], [16, 17]] : List Bytes).flatten.length)
      ∧ upload.Succeeds (MemoryPool.serve 0) poolOfTen
      ∧ (upload.run (MemoryPool.serve 0) poolOfTen).1 = .ok ⟨7, 2, true⟩
      ∧ (upload.run (MemoryPool.serve 0) poolOfTen).2.content? "k" =
        some [11, 12, 13, 14, 15, 16, 17] := by
  intro upload
  have hdeclared : ∀ length, some 7 = some length →
      length = ([[11, 12], [], [13, 14, 15], [16, 17]] : List Bytes).flatten.length := by
    rintro _ ⟨⟩
    rfl
  obtain ⟨hstore, -, -, hpool, -⟩ := upload_in_even_pieces 4 "k"
    [[11, 12], [], [13, 14, 15], [16, 17]] (some 7) true hdeclared
  obtain ⟨hsucceeds, hcontent⟩ := hpool poolOfTen 0 (by decide)
  have hall := hsucceeds (by decide) (by decide)
  refine ⟨hdeclared, hall, (hstore _ _ hall).1, ?_⟩
  exact (congrFun (hcontent hall) "k").trans (Function.update_self _ _ _)

end DavGateway
