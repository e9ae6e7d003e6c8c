import DavGateway.Proofs.Flow
import DavGateway.Transfer.Download
import DavGateway.Transfer.Listing
import DavGateway.Transfer.Upload

/-!
# Sessions side by side

Two answers to a call of a session are alike if they differ in nothing but the time of a last change
(`SessionCall.Alike`); this leaves no room for a reply of the wrong kind. A session whose calls are
answered alike makes the same calls as before, and hands out and ends with the same, the times
aside: so do downloads, listings, uploads and whatever else is asked of it one thing after the
other.
-/

namespace DavGateway

/-- The failure is not about a reply of the wrong kind. -/
def Failure.IsProper (failure : Failure) : Prop :=
  ∀ name reply, failure ≠ Session.unexpected name reply

namespace Session

variable {α β δ : Type}

/-- Two results are alike: what they are is related, or they are one failure, which is fine. -/
def Alike (fine : Failure → Prop) (rel : α → α → Prop) : Except Failure α → Except Failure α → Prop
  | .ok a, .ok b => rel a b
  | .error failure, .error failure' => failure' = failure ∧ fine failure
  | .ok _, .error _ | .error _, .ok _ => False

/-- Two objects differ in the times of their last changes only. -/
def SameSize (stat stat' : ObjectStat) : Prop := stat'.size = stat.size

end Session

/-- Two replies to an operation differ in the times of last changes only. -/
def Operation.Alike : Operation → Reply → Reply → Prop
  | .stat _, .stat s, .stat s' => Session.SameSize s s'
  | .read _ _ _, .data bytes, .data bytes' => bytes' = bytes
  | .write _ _ _, .done, .done | .remove _, .done, .done => True
  | _, _, _ => False

/-- Two answers to a call differ in the times of last changes only. -/
def SessionCall.Alike : (call : SessionCall) → call.Answer → call.Answer → Prop
  | .operate operation => Session.Alike Failure.IsProper operation.Alike
  | .list => Session.Alike Failure.IsProper fun keys keys' => keys' = keys
  | .advance _ => Session.Alike Failure.IsProper fun _ _ => True

namespace Session

variable {α β δ : Type} {fine : Failure → Prop} {rel : α → α → Prop} {rel' : δ → δ → Prop}
variable {items : β → β → Prop}

/-- Two sessions go side by side. -/
def Parallel (items : β → β → Prop) (fine : Failure → Prop) (rel : α → α → Prop)
    (x y : SessionM β α) : Prop :=
  Flow.Parallel SessionCall.Alike items (Alike fine rel) x.run y.run

namespace Parallel

theorem bind {x y : SessionM β α} {f g : α → SessionM β δ} (h : Parallel items fine rel x y)
    (hf : ∀ a b, rel a b → Parallel items fine rel' (f a) (g b)) :
    Parallel items fine rel' (x >>= f) (y >>= g) := by
  unfold Parallel
  rw [ExceptT.run_bind, ExceptT.run_bind]
  refine Flow.Parallel.bind h fun result result' hresult => ?_
  match result, result', hresult with
  | .ok a, .ok b, hab => exact hf a b hab
  | .error failure, .error failure', hfailure => exact .done hfailure

theorem pure {a b : α} (h : rel a b) :
    Parallel items fine rel (Pure.pure a : SessionM β α) (Pure.pure b) := .done h

theorem throw {failure : Failure} (h : fine failure) :
    Parallel items fine rel (throw failure : SessionM β α) (throw failure) := .done ⟨rfl, h⟩

theorem emit {item item' : β} (h : items item item') :
    Parallel items fine (fun _ _ => True) (Session.emit item) (Session.emit item') :=
  Flow.Parallel.emit h (.done trivial)

/-- Looking at how something ends does not fail. -/
theorem attempt {x y : SessionM β α} (h : Parallel items fine rel x y) {fine' : Failure → Prop} :
    Parallel items fine' (Alike fine rel) (attempt x) (attempt y) :=
  Flow.Parallel.bind h fun _ _ hresult => .done hresult

theorem list (hfine : ∀ failure, failure.IsProper → fine failure) :
    Parallel items fine (fun keys keys' => keys' = keys)
      (Session.list : SessionM β (List String)) Session.list := by
  refine .ask fun reply reply' hlike => .done ?_
  match reply, reply', hlike with
  | .ok keys, .ok keys', hkeys => exact hkeys
  | .error failure, .error failure', hfailure => exact ⟨hfailure.1, hfine _ hfailure.2⟩

theorem advance (hfine : ∀ failure, failure.IsProper → fine failure) (next : Option String) :
    Parallel items fine (fun _ _ => True) (Session.advance next : SessionM β Unit)
      (Session.advance next) := by
  refine .ask fun reply reply' hlike => .done ?_
  match reply, reply', hlike with
  | .ok (), .ok (), _ => trivial
  | .error failure, .error failure', hfailure => exact ⟨hfailure.1, hfine _ hfailure.2⟩

theorem operate (hfine : ∀ failure, failure.IsProper → fine failure) (operation : Operation) :
    Parallel items fine operation.Alike (Session.operate operation : SessionM β Reply)
      (Session.operate operation) := by
  refine .ask fun reply reply' hlike => .done ?_
  match reply, reply', hlike with
  | .ok reply, .ok reply', hreply => exact hreply
  | .error failure, .error failure', hfailure => exact ⟨hfailure.1, hfine _ hfailure.2⟩

theorem stat (hfine : ∀ failure, failure.IsProper → fine failure) (key : String) :
    Parallel items fine SameSize (Session.stat key : SessionM β ObjectStat)
      (Session.stat key) := by
  refine (operate hfine (.stat key)).bind fun reply reply' hreply => ?_
  match reply, reply', hreply with
  | .stat stat, .stat stat', hstat => exact .pure hstat

theorem read (hfine : ∀ failure, failure.IsProper → fine failure) (key : String)
    (length offset : Nat) :
    Parallel items fine (fun bytes bytes' => bytes' = bytes)
      (Session.read key length offset : SessionM β Bytes) (Session.read key length offset) := by
  refine (operate hfine (.read key length offset)).bind fun reply reply' hreply => ?_
  match reply, reply', hreply with
  | .data bytes, .data bytes', hbytes => exact .pure hbytes

theorem write (hfine : ∀ failure, failure.IsProper → fine failure) (key : String) (data : Bytes)
    (offset : Nat) :
    Parallel items fine (fun _ _ => True) (Session.write key data offset : SessionM β Unit)
      (Session.write key data offset) :=
  (operate hfine (.write key data offset)).bind fun _ _ _ => .pure trivial

theorem remove (hfine : ∀ failure, failure.IsProper → fine failure) (key : String) :
    Parallel items fine (fun _ _ => True) (Session.remove key : SessionM β Unit)
      (Session.remove key) :=
  (operate hfine (.remove key)).bind fun _ _ _ => .pure trivial

end Parallel

end Session

/-! ## Downloads and listings -/

/-- Two objects of a listing differ in the times of their last changes only. -/
def ListedObject.Alike (o o' : ListedObject) : Prop :=
  o'.key = o.key ∧ Session.SameSize o.stat o'.stat

theorem Download.chunksFrom_parallel (c : Nat) (key : String) (size offset : Nat) :
    Session.Parallel (fun bytes bytes' => bytes' = bytes) Failure.IsProper (fun _ _ => True)
      (chunksFrom c key size offset) (chunksFrom c key size offset) := by
  -- each chunk brings the offset closer to the end
  induction hleft : size - offset using Nat.strongRecOn generalizing offset with
  | ind left ih =>
    rw [chunksFrom]
    split
    · refine (Session.Parallel.read (fun _ => id) _ _ _).bind fun data data' hdata => ?_
      cases hdata
      split
      · exact .throw fun _ _ => nofun
      · next hnonempty =>
        have hemit : Session.Parallel (fun bytes bytes' => bytes' = bytes) Failure.IsProper
            (fun _ _ => True) (Session.emit data) (Session.emit data) := .emit rfl
        exact hemit.bind fun _ _ _ => ih (size - (offset + data.length)) (by omega) _ rfl
    · exact .pure trivial

theorem Download.run_parallel (chunkSize : Nat) (key : String) (size : Nat) :
    Session.Parallel (fun bytes bytes' => bytes' = bytes) Failure.IsProper (fun _ _ => True)
      (run chunkSize key size) (run chunkSize key size) := chunksFrom_parallel _ key size 0

theorem Listing.visit_parallel (keys : List String) :
    Session.Parallel ListedObject.Alike Failure.IsProper (fun _ _ => True) (visit keys)
      (visit keys) := by
  induction keys with
  | nil => exact .advance (fun _ => id) none
  | cons key rest ih =>
    have hstat : Session.Parallel ListedObject.Alike Failure.IsProper Session.SameSize
        (Session.stat key) (Session.stat key) := .stat (fun _ => id) key
    refine (Session.Parallel.advance (fun _ => id) (some key)).bind fun _ _ _ => ?_
    refine hstat.attempt.bind fun result result' hresult => ?_
    match result, result', hresult with
    | .ok stat, .ok stat', hsize => exact (Session.Parallel.emit ⟨rfl, hsize⟩).bind fun _ _ _ => ih
    | .error failure, .error _, ⟨rfl, hproper⟩ =>
      show Session.Parallel _ _ _ (if failure.isNotFound then _ else _)
        (if failure.isNotFound then _ else _)
      split
      · exact ih
      · exact .throw hproper

theorem Listing.run_parallel :
    Session.Parallel ListedObject.Alike Failure.IsProper (fun _ _ => True) run run := by
  refine (Session.Parallel.list fun _ => id).bind fun keys keys' hkeys => ?_
  cases hkeys
  exact visit_parallel keys

/-! ## Uploads -/

/-- What fails an upload is its body, or nothing improper. -/
def UploadRequest.Fine (request : UploadRequest) (failure : Failure) : Prop :=
  .error failure ∈ request.frames ∨ failure.IsProper

namespace Upload

variable {fine : Failure → Prop}

/-- Parts of an upload go side by side with themselves, and come to the same. -/
abbrev Twin {α : Type} (fine : Failure → Prop) (x : SessionM Empty α) : Prop :=
  Session.Parallel (fun _ _ => True) fine (fun a b => b = a) x x

theorem twin_bind {α δ : Type} {x : SessionM Empty α} {f : α → SessionM Empty δ}
    (hx : Twin fine x) (hf : ∀ a, Twin fine (f a)) : Twin fine (x >>= f) := by
  refine hx.bind fun a b hab => ?_
  cases hab
  exact hf a

theorem writeChunks_twin (hfine : ∀ failure, failure.IsProper → fine failure) (key : String)
    (chunks : List Bytes) (offset : Nat) : Twin fine (writeChunks key chunks offset) := by
  induction chunks generalizing offset with
  | nil => exact .pure rfl
  | cons chunk rest ih => exact (Session.Parallel.write hfine _ _ _).bind fun _ _ _ => ih _

theorem receive_twin (hfine : ∀ failure, failure.IsProper → fine failure) (key : String) (c : Nat)
    (declared : Option Nat) (frames : List (Except Failure Bytes))
    (hframes : ∀ failure, .error failure ∈ frames → fine failure) (p : Progress) :
    Twin fine (receive key c declared frames p) := by
  induction frames generalizing p with
  | nil => exact .pure rfl
  | cons frame rest ih =>
    cases frame with
    | error failure => exact .throw (hframes failure List.mem_cons_self)
    | ok data =>
      unfold receive
      simp only
      split
      · exact .throw (hfine _ fun _ _ => nofun)
      · refine twin_bind (writeChunks_twin hfine _ _ _) fun n => ?_
        exact ih (fun failure hf => hframes failure (List.mem_cons_of_mem _ hf)) _

theorem finish_twin (hfine : ∀ failure, failure.IsProper → fine failure) (key : String)
    (declared : Option Nat) (p : Progress) : Twin fine (finish key declared p) := by
  unfold finish
  split
  · exact .throw (hfine _ fun _ _ => nofun)
  · split
    · exact (Session.Parallel.write hfine _ _ _).bind fun _ _ _ => .pure rfl
    · exact .pure rfl

theorem clear_twin (hfine : ∀ failure, failure.IsProper → fine failure) (key : String) :
    Twin fine (clear key) := by
  refine (Session.Parallel.remove hfine key).attempt.bind fun result result' hresult => ?_
  match result, result', hresult with
  | .ok (), .ok (), _ => exact .pure rfl
  | .error failure, .error _, ⟨rfl, hfailure⟩ =>
    show Twin _ (if failure.isNotFound then _ else _)
    split
    · exact .pure rfl
    · exact .throw hfailure

theorem run_parallel (chunkSize : Nat) (request : UploadRequest) :
    Twin request.Fine (run chunkSize request) := by
  have hproper : ∀ failure, failure.IsProper → request.Fine failure := fun _ => .inr
  have hrest : Twin request.Fine (do
      let p ← receive request.key (max chunkSize 1) request.declared request.frames {}
      let p ← finish request.key request.declared p
      return ⟨p.received, p.chunks, request.replaces⟩ : SessionM Empty UploadReceipt) := by
    refine twin_bind (receive_twin hproper _ _ _ _ (fun _ => .inl) _) fun p => ?_
    exact twin_bind (finish_twin hproper _ _ _) fun p => .pure rfl
  unfold run
  split
  · exact twin_bind (clear_twin hproper request.key) fun _ => hrest
  · exact hrest

end Upload

/-! ## One thing after the other -/

/-- What can be asked of a session. Its listings are numbered in the order in which they are
opened. -/
inductive SessionTask where
  | stat (key : String)
  | read (key : String) (length offset : Nat)
  | write (key : String) (data : Bytes) (offset : Nat)
  | remove (key : String)
  | list
  | next (listing : Nat)
deriving DecidableEq, Repr

/-- What a session gives back. -/
inductive TaskResult where
  | stat (result : Except Failure ObjectStat)
  | data (result : Except Failure Bytes)
  | done (result : Except Failure Unit)
  | entry (result : Except Failure (Option String))

/-- Two results differ in the time of a last change only, and neither is about a reply of the wrong
kind. -/
def TaskResult.Alike : TaskResult → TaskResult → Prop
  | .stat result, .stat result' => Session.Alike Failure.IsProper Session.SameSize result result'
  | .data result, .data result' => Session.Alike Failure.IsProper (fun a b => b = a) result result'
  | .done result, .done result' => Session.Alike Failure.IsProper (fun _ _ => True) result result'
  | .entry result, .entry result' => Session.Alike Failure.IsProper (fun a b => b = a) result result'
  | _, _ => False

namespace SessionTask

/-- Hands out how something ends. -/
def report {α : Type} (f : Except Failure α → TaskResult) (x : SessionM TaskResult α) :
    SessionM TaskResult (Except Failure α) := do
  let result ← Session.attempt x
  Session.emit (f result)
  return result

/-- Does one task after the other, while the listings that are open have these keys to come. -/
def runAll : List SessionTask → List (List String) → SessionM TaskResult Unit
  | [], _ => return
  | .stat key :: rest, listings => do
    let _ ← report .stat (Session.stat key)
    runAll rest listings
  | .read key length offset :: rest, listings => do
    let _ ← report .data (Session.read key length offset)
    runAll rest listings
  | .write key data offset :: rest, listings => do
    let _ ← report .done (Session.write key data offset)
    runAll rest listings
  | .remove key :: rest, listings => do
    let _ ← report .done (Session.remove key)
    runAll rest listings
  | .list :: rest, listings => do
    match ← report (fun result => .done (result.map fun _ => ())) Session.list with
    | .ok keys => runAll rest (listings ++ [keys])
    | .error _ => runAll rest listings
  | .next listing :: rest, listings =>
    match listings[listing]? with
    | some keys => do
      let _ ← report (fun result => .entry (result.map fun _ => keys.head?))
        (Session.advance keys.head?)
      runAll rest (listings.set listing keys.tail)
    | none => do
      Session.emit (.entry (.ok none))
      runAll rest listings

theorem report_parallel {α : Type} {rel : α → α → Prop} {f : Except Failure α → TaskResult}
    {x : SessionM TaskResult α}
    (hx : Session.Parallel TaskResult.Alike Failure.IsProper rel x x)
    (hf : ∀ result result', Session.Alike Failure.IsProper rel result result' →
      TaskResult.Alike (f result) (f result')) :
    Session.Parallel TaskResult.Alike Failure.IsProper (Session.Alike Failure.IsProper rel)
      (report f x) (report f x) := by
  refine hx.attempt.bind fun result result' hresult => ?_
  exact (Session.Parallel.emit (hf _ _ hresult)).bind fun _ _ _ => .pure hresult

theorem runAll_parallel (tasks : List SessionTask) (listings : List (List String)) :
    Session.Parallel TaskResult.Alike Failure.IsProper (fun _ _ => True) (runAll tasks listings)
      (runAll tasks listings) := by
  have hproper : ∀ failure : Failure, failure.IsProper → failure.IsProper := fun _ => id
  -- induction on the tasks that are left: alike results leave the same listings open
  induction tasks generalizing listings with
  | nil => exact .pure trivial
  | cons task rest ih =>
    cases task with
    | stat key =>
      exact (report_parallel (.stat hproper key) fun _ _ => id).bind fun _ _ _ => ih _
    | read key length offset =>
      exact (report_parallel (.read hproper key length offset) fun _ _ => id).bind fun _ _ _ => ih _
    | write key data offset =>
      exact (report_parallel (.write hproper key data offset) fun _ _ => id).bind fun _ _ _ => ih _
    | remove key =>
      exact (report_parallel (.remove hproper key) fun _ _ => id).bind fun _ _ _ => ih _
    | list =>
      have hreport : ∀ result result' : Except Failure (List String),
          Session.Alike Failure.IsProper (fun keys keys' => keys' = keys) result result' →
          TaskResult.Alike (.done (result.map fun _ => ())) (.done (result'.map fun _ => ())) := by
        intro result result' hresult
        match result, result', hresult with
        | .ok keys, .ok keys', _ => trivial
        | .error failure, .error failure', hfailure => exact hfailure
      refine (report_parallel (.list hproper) hreport).bind fun result result' hresult => ?_
      match result, result', hresult with
      | .ok keys, .ok _, rfl => exact ih _
      | .error failure, .error failure', _ => exact ih _
    | next listing =>
      have hended : Session.Parallel TaskResult.Alike Failure.IsProper (fun _ _ => True)
          (Session.emit (.entry (.ok none))) (Session.emit (.entry (.ok none))) := .emit rfl
      unfold runAll
      split
      · next keys _ =>
        have hreport : ∀ result result' : Except Failure Unit,
            Session.Alike Failure.IsProper (fun _ _ => True) result result' →
            TaskResult.Alike (.entry (result.map fun _ => keys.head?))
              (.entry (result'.map fun _ => keys.head?)) := by
          intro result result' hresult
          match result, result', hresult with
          | .ok (), .ok (), _ => exact rfl
          | .error failure, .error failure', hfailure => exact hfailure
        exact (report_parallel (.advance hproper keys.head?) hreport).bind fun _ _ _ => ih _
      · exact hended.bind fun _ _ _ => ih _

end SessionTask

end DavGateway
