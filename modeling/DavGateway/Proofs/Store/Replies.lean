import DavGateway.Proofs.Store.Timeless
import DavGateway.Proofs.Transfer.Alike

/-!
# What stores reply

The reply to an operation is of the kind of the operation, and a failure is none about replies of
the wrong kind. So clusters that differ in their times alone give answers that are alike.
-/

namespace DavGateway

/-- The call was carried out to its end. -/
def Ending.HasReturned {α : Type} : Ending α → Prop
  | .returned _ => True
  | .broken _ => False

instance {α : Type} (ending : Ending α) : Decidable ending.HasReturned :=
  match ending with
  | .returned _ => .isTrue trivial
  | .broken _ => .isFalse id

/-- An operation that is carried out to its end has a reply of its kind, or fails properly. -/
def Ending.Fits (operation : Operation) : Ending Reply → Prop
  | .returned outcome => Session.Alike Failure.IsProper operation.Alike outcome outcome
  | .broken _ => True

/-- A reply of the right kind is alike to all that differ from it in their times alone. -/
theorem Operation.Alike.of_timeless {operation : Operation} {reply reply' : Reply}
    (h : operation.Alike reply reply) (htimes : reply.timeless = reply'.timeless) :
    operation.Alike reply reply' := by
  cases reply with
  | done =>
    cases reply' with
    | done => exact h
    | stat s' | data bytes' => cases htimes
  | stat s =>
    cases reply' with
    | done | data bytes' => cases htimes
    | stat s' =>
      have hstat : Reply.stat { s with mtime := 0 } = .stat { s' with mtime := 0 } := htimes
      obtain ⟨hsize, -⟩ := ObjectStat.mk.inj (Reply.stat.inj hstat)
      cases operation with
      | stat key => exact hsize.symm
      | read key length offset | write key data offset | remove key => exact h.elim
  | data bytes =>
    cases reply' with
    | done | stat s' => cases htimes
    | data bytes' =>
      cases htimes
      exact h

namespace Failure

theorem isProper_ofSystem (error : SystemError) : (ofSystem error).IsProper := fun _ _ => nofun

theorem isProper_objectNotFound (key : String) : (objectNotFound key).IsProper := fun _ _ => nofun

theorem isProper_of_checkKey {key : String} {failure : Failure}
    (h : Names.checkKey key = .error failure) : failure.IsProper := by
  unfold Names.checkKey at h
  split at h
  · cases h
    exact fun _ _ => nofun
  · split at h
    · cases h
      exact fun _ _ => nofun
    · cases h

theorem isProper_missing (cluster : Nat) : (Clusters.missing cluster).IsProper := by
  intro name reply heq
  -- the two texts begin with different letters
  have htext : "no cluster " ++ toString cluster =
      "unexpected reply to " ++ name ++ ": " ++ reply.text := Failure.internal.inj heq
  have hfirst := congrArg (fun text => text.toList.head?) htext
  simp [String.toList_append] at hfirst

end Failure

namespace MemoryPool

theorem perform_fits (p : MemoryPool) (now : Int) (operation : Operation) :
    (p.perform now operation).1.Fits operation := by
  cases operation with
  | stat key =>
    simp only [perform, stat]
    cases p.objects.get? key with
    | some object => exact rfl
    | none => exact ⟨rfl, Failure.isProper_objectNotFound key⟩
  | read key length offset =>
    simp only [perform, read]
    cases p.objects.get? key with
    | some object => exact rfl
    | none => exact ⟨rfl, Failure.isProper_objectNotFound key⟩
  | write key data offset =>
    simp only [perform, write]
    cases hkey : Names.checkKey key with
    | error failure => exact ⟨rfl, Failure.isProper_of_checkKey hkey⟩
    | ok =>
      simp only
      split
      · trivial
      · split <;> trivial
  | remove key =>
    simp only [perform, remove]
    split
    · trivial
    · exact ⟨rfl, Failure.isProper_objectNotFound key⟩

end MemoryPool

namespace DirectoryPool

variable (p : DirectoryPool) (d : Disk)

theorem isProper_of_filePath {key : String} {failure : Failure}
    (h : p.filePath key = .error failure) : failure.IsProper := by
  unfold filePath at h
  cases hkey : Names.checkKey key with
  | error failure' =>
    rw [hkey] at h
    cases h
    exact Failure.isProper_of_checkKey hkey
  | ok =>
    rw [hkey] at h
    cases h

theorem isProper_failureAt (key : String) (error : SystemError) :
    (failureAt key error).IsProper := by
  cases error <;> exact fun _ _ => nofun

theorem perform_fits (now : Int) (operation : Operation) :
    (p.perform d now operation).1.Fits operation := by
  cases operation with
  | stat key =>
    simp only [perform, stat]
    cases hpath : p.filePath key with
    | error failure => exact ⟨rfl, p.isProper_of_filePath hpath⟩
    | ok path =>
      simp only [bind, Except.bind]
      rcases d.find path with e | (_ | _)
      · exact ⟨rfl, isProper_failureAt key e⟩
      · exact rfl
      · exact ⟨rfl, Failure.isProper_objectNotFound key⟩
  | read key length offset =>
    simp only [perform, read]
    cases hpath : p.filePath key with
    | error failure => exact ⟨rfl, p.isProper_of_filePath hpath⟩
    | ok path =>
      simp only
      cases d.find path with
      | error e => exact ⟨rfl, isProper_failureAt key e⟩
      | ok entry =>
        simp only
        split
        · exact ⟨rfl, Failure.isProper_ofSystem _⟩
        · split
          · trivial
          · cases entry with
            | file data mtime => exact rfl
            | folder =>
              simp only
              split
              · exact rfl
              · exact ⟨rfl, Failure.isProper_ofSystem _⟩
  | write key data offset =>
    simp only [perform, write]
    cases hpath : p.filePath key with
    | error failure => exact ⟨rfl, p.isProper_of_filePath hpath⟩
    | ok path =>
      simp only
      cases d.changeFile path now _ with
      | error e => exact ⟨rfl, Failure.isProper_ofSystem e⟩
      | ok d =>
        simp only
        split
        · exact ⟨rfl, Failure.isProper_ofSystem _⟩
        · trivial
  | remove key =>
    simp only [perform, remove]
    cases hpath : p.filePath key with
    | error failure => exact ⟨rfl, p.isProper_of_filePath hpath⟩
    | ok path =>
      simp only
      cases d.removeFile path with
      | error e => exact ⟨rfl, isProper_failureAt key e⟩
      | ok d => trivial

end DirectoryPool

namespace Clusters

variable {c c' : Clusters} {ref : PoolRef}

theorem perform_fits (c : Clusters) (ref : PoolRef) (operation : Operation) :
    (c.perform ref operation).1.Fits operation := by
  unfold perform
  cases c.members[ref.cluster]? with
  | none => exact ⟨rfl, Failure.isProper_missing _⟩
  | some member =>
    cases member with
    | memory identity cluster => exact MemoryPool.perform_fits _ c.now operation
    | directory cluster => exact DirectoryPool.perform_fits _ c.disk c.now operation

/-- Clusters that differ in their times alone give outcomes that do. -/
theorem outcome_alike (h : c.timeless = c'.timeless) {operation : Operation} {outcome : Outcome}
    (houtcome : (c.perform ref operation).1 = .returned outcome) :
    ∃ outcome', (c'.perform ref operation).1 = .returned outcome'
      ∧ Session.Alike Failure.IsProper operation.Alike outcome outcome' := by
  have hfits := c.perform_fits ref operation
  have htimes := (perform_alike h ref operation).1
  rw [houtcome] at hfits htimes
  cases hother : (c'.perform ref operation).1 with
  | broken breakage =>
    rw [hother] at htimes
    cases htimes
  | returned outcome' =>
    rw [hother] at htimes
    refine ⟨outcome', rfl, ?_⟩
    have htimes : outcome.map Reply.timeless = outcome'.map Reply.timeless :=
      Ending.returned.inj htimes
    have hfits : Session.Alike Failure.IsProper operation.Alike outcome outcome := hfits
    cases outcome with
    | error failure =>
      cases outcome' with
      | error failure' => exact ⟨(Except.error.inj htimes).symm, hfits.2⟩
      | ok reply' => cases htimes
    | ok reply =>
      cases outcome' with
      | error failure' => cases htimes
      | ok reply' =>
        exact Operation.Alike.of_timeless hfits (Except.ok.inj htimes)

/-- A listing fails properly. -/
theorem keys_alike (h : c.timeless = c'.timeless) :
    Session.Alike Failure.IsProper (fun keys keys' => keys' = keys) (c.list ref).1
      (c'.list ref).1 := by
  rw [← list_alike h ref]
  cases hlist : (c.list ref).1 with
  | ok keys => exact rfl
  | error failure =>
    refine ⟨rfl, ?_⟩
    unfold list at hlist
    split at hlist
    · next member _ =>
      cases member with
      | memory identity cluster => cases hlist
      | directory cluster =>
        have hkeys : DirectoryPool.keys ⟨cluster.root ++ [ref.pool]⟩ c.disk = .error failure :=
          hlist
        unfold DirectoryPool.keys at hkeys
        split at hkeys
        · cases hkeys
        · cases hkeys
          exact Failure.isProper_ofSystem _
    · cases hlist
      exact Failure.isProper_missing _

end Clusters

end DavGateway
