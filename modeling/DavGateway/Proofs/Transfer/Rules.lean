import DavGateway.Proofs.Flow
import DavGateway.Proofs.Store.Objects
import DavGateway.Proofs.Transfer.Upload
import DavGateway.Transfer.Download

/-!
# The operations of a transfer

An upload looks its object up, removes it if it is there, and writes its body, each chunk where the
last one ended (`Upload.rules`). It goes on only after operations that were carried out, or that
failed for the lack of the object; so if it ends well, all of its body was written
(`Upload.run_follows`). A download reads its object piece by piece, and if it ends well it has
handed all of it out (`Download.run_brings`). Whatever else is done to the object meanwhile is no
matter here.
-/

namespace DavGateway

open DavGateway.Flow (Follows follows_pure follows_throw)

/-- Rules for operations, as rules for the calls of a session that makes no listings. -/
def Flow.Protocol.session {S : Type} (q : Flow.Protocol Operation (fun _ => Outcome) S) :
    Flow.Protocol SessionCall SessionCall.Answer S where
  may
    | place, .operate operation => q.may place operation
    | _, .list | _, .advance _ => False
  can
    | place, .operate operation, outcome => q.can place operation outcome
    | _, .list, _ | _, .advance _, _ => True
  next
    | place, .operate operation, outcome => q.next place operation outcome
    | place, .list, _ | place, .advance _, _ => place

namespace Bytes

variable {bytes data : Bytes} {n : Nat}

/-- Bytes that come next are added to those before them. -/
theorem take_append_of_prefix (h : data <+: bytes.drop n) :
    bytes.take n ++ data = bytes.take (n + data.length) := by
  rw [List.take_add, ← List.prefix_iff_eq_take.mp h]

theorem length_le_of_prefix (h : data <+: bytes.drop n) (hn : n ≤ bytes.length) :
    n + data.length ≤ bytes.length := by
  have hlength := h.length_le
  rw [List.length_drop] at hlength
  omega

end Bytes

namespace Upload

/-! ## The places of an upload -/

/-- Where an upload stands: it will look its object up, it will remove it, it has written some bytes
or no chunk yet, or it has failed. -/
inductive Place where
  | looking
  | clearing
  | writing (written : Option Nat)
  | refused
deriving DecidableEq, Repr

/-- The operations of an upload of `body` to the object under `key`. -/
def rules (key : String) (body : Bytes) : Flow.Protocol Operation (fun _ => Outcome) Place where
  may
    | .looking, .stat key' => key' = key
    | .clearing, .remove key' => key' = key
    | .writing written, .write key' data offset =>
      key' = key ∧ offset = written.getD 0 ∧ data <+: body.drop offset
    | _, _ => False
  can _ _ _ := True
  next
    | .looking, _, .ok _ => .clearing
    | .clearing, _, .ok _ => .writing none
    | .looking, _, .error failure | .clearing, _, .error failure =>
      if failure.isNotFound then .writing none else .refused
    | .writing written, .write _ data _, .ok _ => .writing (some (written.getD 0 + data.length))
    | .writing _, _, _ | .refused, _, _ => .refused

variable {key : String} {body : Bytes} {place : Place} {operation : Operation}

theorem key_of_may (h : (rules key body).may place operation) : operation.key = key := by
  cases place with
  | looking => cases operation <;> first | exact h | exact h.elim
  | clearing => cases operation <;> first | exact h | exact h.elim
  | writing written => cases operation <;> first | exact h.1 | exact h.elim
  | refused => cases operation <;> exact h.elim

/-- An operation that fails for another reason than the lack of the object ends the upload. -/
theorem next_refused {failure : Failure} (h : failure.isNotFound = false) :
    (rules key body).next place operation (.error failure) = .refused := by
  cases place with
  | looking | clearing =>
    show (if failure.isNotFound then Place.writing none else .refused) = .refused
    rw [h]
    rfl
  | writing written => cases operation <;> rfl
  | refused => rfl

/-- What an operation of an upload can come to that is carried out: the object is looked up, and it
is there or not; it is removed; or a chunk is written. -/
theorem step_cases {content content' : Option Bytes} {outcome : Outcome}
    (hmay : (rules key body).may place operation)
    (htakes : operation.Takes content outcome content') :
    (place = .looking ∧ operation = .stat key ∧ content' = content
      ∧ ((rules key body).next place operation outcome = .clearing
        ∨ content = none ∧ (rules key body).next place operation outcome = .writing none))
    ∨ (place = .clearing ∧ operation = .remove key ∧ content' = none
      ∧ (rules key body).next place operation outcome = .writing none)
    ∨ ∃ written data, place = .writing written ∧ operation = .write key data (written.getD 0)
      ∧ data <+: body.drop (written.getD 0)
      ∧ content' = some ((content.getD []).overlay (written.getD 0) data)
      ∧ (rules key body).next place operation outcome =
        .writing (some (written.getD 0 + data.length)) := by
  cases place with
  | looking =>
    left
    cases htakes with
    | stat h => exact ⟨rfl, congrArg _ hmay, rfl, .inl rfl⟩
    | statMissing => exact ⟨rfl, congrArg _ hmay, rfl, .inr ⟨rfl, rfl⟩⟩
    | read | readMissing | write | remove | removeMissing => exact hmay.elim
  | clearing =>
    right; left
    cases htakes with
    | remove => exact ⟨rfl, congrArg _ hmay, rfl, rfl⟩
    | removeMissing => exact ⟨rfl, congrArg _ hmay, rfl, rfl⟩
    | stat h | statMissing | read | readMissing | write => exact hmay.elim
  | writing written =>
    right; right
    cases htakes with
    | write =>
      obtain ⟨rfl, rfl, hdata⟩ := hmay
      exact ⟨written, _, rfl, rfl, hdata, rfl, rfl⟩
    | stat h | statMissing | read | readMissing | remove | removeMissing => exact hmay.elim
  | refused => cases operation <;> exact hmay.elim

/-! ## The body is written -/

/-- The bytes of the frames that arrive. -/
def bytesOf (frames : List (Except Failure Bytes)) : Bytes := frames.flatMap fun
  | .ok data => data
  | .error _ => []

variable {written : Option Nat} {c : Nat} {declared : Option Nat}

theorem write_follows (key : String) {data : Bytes} (h : data <+: body.drop (written.getD 0)) :
    Follows (rules key body).session
      (fun place _ => place = .writing (some (written.getD 0 + data.length))) (fun _ _ => True)
      (.writing written) (Session.write key data (written.getD 0) : SessionM Empty Unit) := by
  refine ⟨⟨rfl, rfl, h⟩, ?_⟩
  intro outcome _
  match outcome with
  | .ok reply => exact rfl
  | .error failure => trivial

theorem writeChunks_follows (key : String) {chunks : List Bytes} {rest : Bytes}
    (h : body.drop (written.getD 0) = chunks.flatten ++ rest) :
    Follows (rules key body).session
      (fun place total => total = written.getD 0 + chunks.flatten.length
        ∧ ∃ written', place = .writing written' ∧ written'.getD 0 = total
          ∧ (written' = none → written = none ∧ chunks = []))
      (fun _ _ => True) (.writing written) (writeChunks key chunks (written.getD 0)) := by
  induction chunks generalizing written with
  | nil => exact follows_pure ⟨rfl, written, rfl, rfl, fun hnone => ⟨hnone, rfl⟩⟩
  | cons chunk chunks ih =>
    rw [List.flatten_cons, List.append_assoc] at h
    have hchunk : chunk <+: body.drop (written.getD 0) := h ▸ List.prefix_append chunk _
    refine (write_follows key hchunk).bind ?_
    rintro _ ⟨⟩ rfl
    -- the next chunk is written where this one ends
    have hrest : body.drop ((some (written.getD 0 + chunk.length)).getD 0) =
        chunks.flatten ++ rest := by
      rw [Option.getD_some, ← List.drop_drop, h, List.drop_left]
    refine (ih hrest).mono ?_ fun _ _ _ => trivial
    rintro place total ⟨rfl, written', rfl, hwritten', hnone⟩
    refine ⟨?_, written', rfl, hwritten', fun hn => ?_⟩
    · rw [Option.getD_some, List.flatten_cons, List.length_append, Nat.add_assoc]
    · cases (hnone hn).1

/-- What has arrived and was not written waits, and the rest of the body follows it. -/
structure Underway (body rest : Bytes) (place : Place) (g : Progress) : Prop where
  writing : ∃ written, place = .writing written ∧ written.getD 0 = g.written
    ∧ (written = none → g.chunks = 0)
  bound : g.written ≤ body.length
  left : body.drop g.written = g.waiting ++ rest

theorem receive_follows {frames : List (Except Failure Bytes)} {g : Progress}
    (h : Underway body (bytesOf frames) place g) :
    Follows (rules key body).session (Underway body []) (fun _ _ => True) place
      (receive key c declared frames g) := by
  induction frames generalizing place g with
  | nil => exact follows_pure h
  | cons frame frames ih =>
    cases frame with
    | error failure => exact follows_throw trivial
    | ok data =>
      unfold receive
      simp only
      split
      · exact follows_throw trivial
      · obtain ⟨⟨written, rfl, hwritten, hnone⟩, hbound, hleft⟩ := h
        let parts := cut c (g.waiting ++ data)
        have hparts : parts.1.flatten ++ parts.2 = g.waiting ++ data := cut_flatten c _
        have hchunks : body.drop (written.getD 0) =
            parts.1.flatten ++ (parts.2 ++ bytesOf frames) := by
          rw [hwritten, hleft, ← List.append_assoc, hparts, List.append_assoc]
          rfl
        have hfollows := writeChunks_follows key hchunks
        rw [hwritten] at hfollows
        refine hfollows.bind ?_
        rintro place total ⟨rfl, written', rfl, hwritten', hnone'⟩
        refine ih ⟨⟨written', rfl, hwritten', fun hn => ?_⟩, ?_, ?_⟩
        · -- nothing was written before, and there was no whole chunk
          have hzero := hnone' hn
          show g.chunks + parts.1.length = 0
          rw [hnone hzero.1, hzero.2]
          rfl
        · have hlength := congrArg List.length hchunks
          rw [hwritten, List.length_drop, List.length_append] at hlength
          show g.written + parts.1.flatten.length ≤ body.length
          omega
        · show body.drop (g.written + parts.1.flatten.length) = parts.2 ++ bytesOf frames
          rw [← List.drop_drop, ← hwritten, hchunks, List.drop_left]

/-- Once all has arrived and what waits was written, the whole body was. -/
theorem finish_follows {g : Progress} (h : Underway body [] place g) :
    Follows (rules key body).session (fun place _ => place = .writing (some body.length))
      (fun _ _ => True) place (finish key declared g) := by
  obtain ⟨⟨written, rfl, hwritten, hnone⟩, hbound, hleft⟩ := h
  rw [List.append_nil] at hleft
  have hlength := congrArg List.length hleft
  rw [List.length_drop] at hlength
  unfold finish
  split
  · exact follows_throw trivial
  · split
    · next hwaits =>
      have hdata : g.waiting <+: body.drop (written.getD 0) :=
        ⟨[], by rw [hwritten, hleft, List.append_nil]⟩
      have hfollows := write_follows key hdata
      rw [hwritten] at hfollows
      refine hfollows.bind ?_
      rintro _ ⟨⟩ rfl
      have hall : g.written + g.waiting.length = body.length := by omega
      exact follows_pure (congrArg (fun n => Place.writing (some n)) hall)
    · next hwaits =>
      -- nothing waits, and some chunk was written
      obtain ⟨hwaiting, hchunks⟩ := not_or.mp hwaits
      rw [not_not.mp hwaiting, List.length_nil] at hlength
      cases written with
      | none => exact absurd (hnone rfl) hchunks
      | some n =>
        have hall : n = body.length := by
          have hn : n = g.written := hwritten
          omega
        exact follows_pure (congrArg (fun n => Place.writing (some n)) hall)

theorem clear_follows : Follows (rules key body).session (fun place _ => place = .writing none)
    (fun _ _ => True) .clearing (clear key) := by
  refine ⟨rfl, ?_⟩
  intro outcome _
  match outcome with
  | .ok reply => exact rfl
  | .error failure =>
    show Follows (rules key body).session _ _ (if failure.isNotFound then Place.writing none
      else .refused) (if failure.isNotFound then pure () else throw failure : SessionM Empty Unit)
    split
    · exact follows_pure rfl
    · exact follows_throw trivial

/-- An upload that ends well has written its body. -/
theorem run_follows (key : String) (frames : List (Except Failure Bytes)) (declared : Option Nat)
    (chunkSize : Nat) (replaces : Bool) :
    Follows (rules key (bytesOf frames)).session
      (fun place _ => place = .writing (some (bytesOf frames).length)) (fun _ _ => True)
      (if replaces then .clearing else .writing none)
      (run chunkSize ⟨key, frames, declared, replaces⟩) := by
  have hrest : Follows (rules key (bytesOf frames)).session
      (fun place _ => place = .writing (some (bytesOf frames).length)) (fun _ _ => True)
      (.writing none) (do
        let g ← receive key (max chunkSize 1) declared frames {}
        let g ← finish key declared g
        return ⟨g.received, g.chunks, replaces⟩ : SessionM Empty UploadReceipt) := by
    have hstart : Underway (bytesOf frames) (bytesOf frames) (.writing none) {} :=
      ⟨⟨none, rfl, rfl, fun _ => rfl⟩, Nat.zero_le _, rfl⟩
    refine (receive_follows hstart).bind fun place g hg => ?_
    exact (finish_follows hg).bind fun place _ hplace => follows_pure hplace
  unfold run
  cases replaces with
  | false => exact hrest
  | true =>
    refine clear_follows.bind ?_
    rintro _ ⟨⟩ rfl
    exact hrest

/-! ## The calls are small -/

/-- The bytes that were written are some of the body. -/
def Place.IsBounded (body : Bytes) (place : Place) : Prop :=
  ∀ written, place = .writing written → written.getD 0 ≤ body.length

theorem Place.isBounded_start : (Place.writing none).IsBounded body := by
  rintro _ ⟨⟩
  exact Nat.zero_le _

theorem Place.isBounded_failed (failure : Failure) :
    (if failure.isNotFound then Place.writing none else .refused).IsBounded body := by
  split
  · exact isBounded_start
  · exact fun _ => nofun

/-- The next operation is small, and whatever it comes to, only bytes of the body were written. -/
theorem bounded_step (hmay : (rules key body).may place operation) (hplace : place.IsBounded body)
    (hbody : body.length < Text.signedLimit) :
    (SessionCall.operate operation).Small
      ∧ ∀ outcome, ((rules key body).next place operation outcome).IsBounded body := by
  cases place with
  | looking =>
    cases operation with
    | stat other =>
      refine ⟨trivial, fun outcome => ?_⟩
      cases outcome with
      | ok reply => exact fun _ => nofun
      | error failure => exact Place.isBounded_failed failure
    | read | write | remove => exact hmay.elim
  | clearing =>
    cases operation with
    | remove other =>
      refine ⟨trivial, fun outcome => ?_⟩
      cases outcome with
      | ok reply => exact Place.isBounded_start
      | error failure => exact Place.isBounded_failed failure
    | read | write | stat => exact hmay.elim
  | writing written =>
    cases operation with
    | write other data offset =>
      obtain ⟨-, rfl, hdata⟩ := hmay
      have hend : written.getD 0 + data.length ≤ body.length :=
        Bytes.length_le_of_prefix hdata (hplace written rfl)
      refine ⟨Nat.lt_of_le_of_lt hend hbody, fun outcome => ?_⟩
      cases outcome with
      | ok reply =>
        rintro _ ⟨⟩
        exact hend
      | error failure => exact fun _ => nofun
    | stat | read | remove => exact hmay.elim
  | refused => cases operation <;> exact hmay.elim

/-- An upload of a body that can be kept in memory makes small calls only. -/
theorem run_small {frames : List (Except Failure Bytes)}
    (h : (bytesOf frames).length < Text.signedLimit) (key : String) (declared : Option Nat)
    (chunkSize : Nat) (replaces : Bool) :
    (run chunkSize ⟨key, frames, declared, replaces⟩).run.Only SessionCall.Small := by
  have hstart :
      (if replaces then Place.clearing else .writing none).IsBounded (bytesOf frames) := by
    cases replaces with
    | true => exact fun _ => nofun
    | false => exact Place.isBounded_start
  refine (run_follows key frames declared chunkSize replaces).only hstart ?_
  intro place call hmay hplace
  cases call with
  | list | advance next => exact hmay.elim
  | operate operation =>
    obtain ⟨hsmall, hnext⟩ := bounded_step hmay hplace h
    exact ⟨hsmall, fun outcome => ⟨trivial, hnext outcome⟩⟩

end Upload

namespace Download

/-! ## The operations of a download -/

/-- A download looks its object up and reads it. It is told about these bytes, or fails for another
reason than that there are none. -/
def rules (key : String) (bytes : Bytes) : Flow.Protocol Operation (fun _ => Outcome) Unit where
  may _ operation := operation = .stat key ∨ ∃ length offset, operation = .read key length offset
  can _ operation outcome := operation.Takes (some bytes) outcome (some bytes)
    ∨ ∃ failure, outcome = .error failure ∧ failure.isNotFound = false
  next _ _ _ := ()

variable {key : String} {bytes : Bytes}

theorem read_brings (length offset : Nat) :
    (Session.read key length offset : SessionM Bytes Bytes).run.Brings (rules key bytes).session
      (fun _ items result => items = []
        ∧ ∀ data, result = .ok data → data = bytes.slice offset length) () := by
  refine ⟨.inr ⟨length, offset, rfl⟩, ?_⟩
  intro outcome hcan
  rcases hcan with htakes | ⟨failure, rfl, -⟩
  · cases htakes with
    | read =>
      refine ⟨rfl, ?_⟩
      rintro data ⟨⟩
      rfl
  · exact ⟨rfl, nofun⟩

/-- From any offset on, what is handed out is the rest of the bytes. -/
theorem chunksFrom_brings {c : Nat} (hc : 1 ≤ c) (offset : Nat) :
    (chunksFrom c key bytes.length offset).run.Brings (rules key bytes).session
      (fun _ chunks result => result = .ok () → chunks.flatten = bytes.drop offset) () := by
  -- each chunk brings the offset closer to the end
  induction hleft : bytes.length - offset using Nat.strongRecOn generalizing offset with
  | ind left ih =>
    rw [chunksFrom]
    by_cases hmore : offset < bytes.length
    · rw [if_pos hmore, ExceptT.run_bind]
      refine (read_brings _ offset).bind ?_
      rintro ⟨⟩ items result ⟨rfl, hdata⟩
      cases result with
      | error failure => exact nofun
      | ok data =>
        show Flow.Brings _ _ _ (ExceptT.run (if data.length = 0 then throw _ else _))
        have hslice := hdata data rfl
        have hlength : data.length = min (bytes.length - offset) c := by
          rw [hslice, Bytes.slice, List.length_take, List.length_drop]
          omega
        rw [if_neg (by omega)]
        have hnext := ih (bytes.length - (offset + data.length)) (by omega)
          (offset + data.length) rfl
        have hemitted : (chunksFrom c key bytes.length (offset + data.length)).run.Brings
            (rules key bytes).session (fun _ chunks result =>
              result = .ok () → (data :: chunks).flatten = bytes.drop offset) () := by
          refine hnext.mono fun _ chunks result hrest hresult => ?_
          rw [List.flatten_cons, hrest hresult, ← List.drop_drop, hlength, hslice]
          exact List.take_append_drop _ _
        exact hemitted
    · rw [if_neg hmore]
      intro _
      rw [List.drop_eq_nil_of_le (Nat.not_lt.mp hmore)]
      rfl

/-- A download that ends well has handed the bytes out. -/
theorem run_brings (chunkSize : Nat) :
    (run chunkSize key bytes.length).run.Brings (rules key bytes).session
      (fun _ chunks result => result = .ok () → chunks.flatten = bytes) () :=
  chunksFrom_brings (Nat.le_max_right chunkSize 1) 0

end Download

end DavGateway
