import DavGateway.Proofs.Store.Dispatcher

/-!
# One object among many

What an operation does to the bytes of one object (`Operation.Takes`), and what everything else
leaves of them. An operation that goes through the clusters either is carried out, after some that
were handed over before it, or fails in a way that nobody takes for a missing object
(`Clusters.Passes`). While nothing that would change an object is outstanding (`Clusters.Quiet`),
its bytes change through the operations that are carried out for those who wait, and not otherwise.
-/

namespace DavGateway

namespace Operation

/-- The operation is one that changes the object under the key. -/
def Changes (key : String) : Operation → Prop
  | .write key' _ _ | .remove key' => key' = key
  | .stat _ | .read _ _ _ => False

instance Changes.decidable (key : String) :
    (operation : Operation) → Decidable (operation.Changes key)
  | .write key' _ _ | .remove key' => inferInstanceAs (Decidable (key' = key))
  | .stat _ | .read _ _ _ => inferInstanceAs (Decidable False)

/-- The operation is carried out on an object: what the bytes were, how it ends, and what the bytes
are then. -/
inductive Takes : Operation → Option Bytes → Outcome → Option Bytes → Prop
  | stat {key : String} {bytes : Bytes} {s : ObjectStat} (h : s.size = bytes.length) :
    Takes (.stat key) (some bytes) (.ok (.stat s)) (some bytes)
  | statMissing {key : String} : Takes (.stat key) none (.error (.objectNotFound key)) none
  | read {key : String} {bytes : Bytes} {length offset : Nat} :
    Takes (.read key length offset) (some bytes) (.ok (.data (bytes.slice offset length)))
      (some bytes)
  | readMissing {key : String} {length offset : Nat} :
    Takes (.read key length offset) none (.error (.objectNotFound key)) none
  | write {key : String} {data : Bytes} {offset : Nat} {content : Option Bytes} :
    Takes (.write key data offset) content (.ok .done)
      (some ((content.getD []).overlay offset data))
  | remove {key : String} {bytes : Bytes} : Takes (.remove key) (some bytes) (.ok .done) none
  | removeMissing {key : String} : Takes (.remove key) none (.error (.objectNotFound key)) none

end Operation

/-! ## Pools in memory -/

namespace MemoryPool

variable {p : MemoryPool} {now : Int} {operation : Operation} {key : String}

theorem isNotFound_of_checkKey {failure : Failure} (h : Names.checkKey key = .error failure) :
    failure.isNotFound = false := by
  unfold Names.checkKey at h
  split at h
  · cases h
    rfl
  · split at h
    · cases h
      rfl
    · cases h

/-- An operation is carried out on its object, or it is a write that the pool does not accept. -/
theorem perform_takes (p : MemoryPool) (now : Int) (operation : Operation) :
    (∃ outcome, (p.perform now operation).1 = .returned outcome
      ∧ operation.Takes (p.content? operation.key) outcome
        ((p.perform now operation).2.content? operation.key))
    ∨ ∃ failure, (p.perform now operation).1.result = .error failure
      ∧ failure.isNotFound = false := by
  cases operation with
  | stat key =>
    left
    refine ⟨_, rfl, ?_⟩
    show Operation.Takes _ (p.content? key) ((p.stat key).map .stat) (p.content? key)
    unfold content? stat
    cases p.objects.get? key with
    | none => exact .statMissing
    | some object => exact .stat rfl
  | read key length offset =>
    left
    refine ⟨_, rfl, ?_⟩
    show Operation.Takes _ (p.content? key) ((p.read key length offset).map .data) (p.content? key)
    unfold content? read
    cases p.objects.get? key with
    | none => exact .readMissing
    | some object => exact .read
  | remove key =>
    left
    refine ⟨_, rfl, ?_⟩
    show Operation.Takes _ (p.content? key) ((p.remove key).1.map fun _ => .done)
      ((p.remove key).2.content? key)
    unfold content? remove Shelf.contains
    cases hget : p.objects.get? key with
    | none =>
      simp only [Option.isSome_none, Bool.false_eq_true, if_false, hget]
      exact .removeMissing
    | some object =>
      simp only [Option.isSome_some, if_true, Shelf.get?_erase]
      exact .remove
  | write key data offset =>
    cases hkey : Names.checkKey key with
    | error failure =>
      right
      refine ⟨failure, ?_, isNotFound_of_checkKey hkey⟩
      simp only [perform, write, hkey]
      rfl
    | ok =>
      by_cases hsmall : offset + data.length < Text.signedLimit
      · left
        refine ⟨.ok .done, ?_, ?_⟩
        · simp only [perform, write_of_small hkey hsmall]
          rfl
        · simp only [perform, write_of_small hkey hsmall, Operation.key]
          have hafter : MemoryPool.content?
              ⟨p.objects.set key ⟨((p.content? key).getD []).overlay offset data, now⟩⟩ key =
                some (((p.content? key).getD []).overlay offset data) := by
            simp [content?]
          rw [hafter]
          exact .write
      · -- the end of the data is no length, or there is no memory for it
        right
        simp only [perform, write_of_large now hkey (Nat.le_of_not_lt hsmall)]
        exact ⟨_, rfl, rfl⟩

/-- The bytes of an object stay the same under all operations that do not change it. -/
theorem content?_perform (h : ¬ operation.Changes key) :
    (p.perform now operation).2.content? key = p.content? key := by
  cases operation with
  | stat key' => rfl
  | read key' length offset => rfl
  | remove key' =>
    have hne : key ≠ key' := fun heq => h heq.symm
    show (p.remove key').2.content? key = p.content? key
    unfold remove
    split
    · simp only [content?, Shelf.get?_erase, if_neg hne]
    · rfl
  | write key' data offset =>
    have hne : key ≠ key' := fun heq => h heq.symm
    show (p.write now key' data offset).2.content? key = p.content? key
    unfold write
    split
    · rfl
    · simp only
      split
      · simp only [content?, Shelf.get?_set, if_neg hne]
      · split <;> simp only [content?, Shelf.get?_set, if_neg hne]

end MemoryPool

/-! ## Clusters -/

namespace Clusters

variable {c c' : Clusters} {ref other : PoolRef} {operation : Operation} {key : String}

/-- Where there is no pool in memory, an operation changes none. -/
theorem poolAt?_perform_of_none (h : c.poolAt? ref = none) (operation : Operation)
    (other : PoolRef) : (c.perform ref operation).2.poolAt? other = c.poolAt? other := by
  unfold poolAt? at h
  unfold perform
  cases hmember : c.members[ref.cluster]? with
  | none => rfl
  | some member =>
    rw [hmember, Option.bind_some] at h
    have hsame : (member.perform c.disk c.now ref.pool operation).2.1 = member := by
      cases member with
      | directory cluster => rfl
      | memory identity cluster =>
        have hnone : cluster.pools.get? ref.pool = none := h
        show Cluster.memory identity ⟨cluster.pools.update ref.pool _⟩ = .memory identity cluster
        unfold Shelf.update
        rw [hnone]
    have hset : c.members.set ref.cluster member = c.members := by
      obtain ⟨hlt, hat⟩ := List.getElem?_eq_some_iff.mp hmember
      subst hat
      exact List.set_getElem_self hlt
    show Option.bind ((c.members.set ref.cluster
      (member.perform c.disk c.now ref.pool operation).2.1)[other.cluster]?) _ = c.poolAt? other
    rw [hsame, hset]
    rfl

/-- A pool in memory stays there. -/
theorem isSome_poolAt?_perform (h : (c.poolAt? ref).isSome) (other : PoolRef)
    (operation : Operation) : ((c.perform other operation).2.poolAt? ref).isSome := by
  cases hother : c.poolAt? other with
  | none =>
    rw [poolAt?_perform_of_none hother]
    exact h
  | some p =>
    obtain ⟨c', hperform, hpools, -⟩ := perform_of_poolAt? hother operation
    rw [hperform, hpools]
    split
    · rfl
    · exact h

/-- The bytes of an object stay the same under all operations that do not change it. -/
theorem content?_perform (h : other = ref → ¬ operation.Changes key) :
    (c.perform other operation).2.content? ref key = c.content? ref key := by
  unfold content?
  cases hother : c.poolAt? other with
  | none => rw [poolAt?_perform_of_none hother]
  | some p =>
    obtain ⟨c', hperform, hpools, -⟩ := perform_of_poolAt? hother operation
    rw [hperform, hpools]
    by_cases heq : ref = other
    · subst heq
      rw [if_pos rfl, hother]
      exact MemoryPool.content?_perform (h rfl)
    · rw [if_neg heq]

/-- An operation is carried out on its object, or it fails, but not for the lack of the object. -/
theorem perform_takes (h : (c.poolAt? ref).isSome) (operation : Operation) :
    (∃ outcome, (c.perform ref operation).1 = .returned outcome
      ∧ operation.Takes (c.content? ref operation.key) outcome
        ((c.perform ref operation).2.content? ref operation.key))
    ∨ ∃ failure, (c.perform ref operation).1.result = .error failure
      ∧ failure.isNotFound = false := by
  obtain ⟨p, hp⟩ := Option.isSome_iff_exists.mp h
  obtain ⟨c', hperform, hpools, -⟩ := perform_of_poolAt? hp operation
  have hbefore : c.content? ref operation.key = p.content? operation.key := by
    rw [content?, hp, Option.bind_some]
  have hafter : c'.content? ref operation.key =
      (p.perform c.now operation).2.content? operation.key := by
    rw [content?, hpools, if_pos rfl, Option.bind_some]
  rw [hperform, hbefore, hafter]
  exact p.perform_takes c.now operation

end Clusters

/-! ## Jobs that are carried out -/

namespace Dispatcher

variable {σ : Type} {perform : PoolRef → Operation → σ → Ending Reply × σ}

/-- Carries jobs out, one after the other. -/
def carryOut (perform : PoolRef → Operation → σ → Ending Reply × σ) (jobs : List Job) (s : σ) : σ :=
  jobs.foldl (fun s job => (perform job.pool job.operation s).2) s

/-- Those in front are carried out. If the job that is waited for has been completed, it is the last
of them. -/
theorem runJobs_split {ticket deadline : Nat} {jobs left : List Job} {s s' : σ}
    {completed : Completed} {reached : Nat}
    (h : runJobs perform ticket deadline jobs s = (completed, left, reached, s')) :
    ∃ done, jobs = done ++ left ∧ s' = carryOut perform done s
      ∧ ∀ outcome, completed.lookup ticket = some outcome → ∃ before job, done = before ++ [job]
        ∧ job.ticket = ticket
        ∧ (perform job.pool job.operation (carryOut perform before s)).1 = .returned outcome := by
  induction jobs generalizing s completed with
  | nil =>
    cases h
    exact ⟨[], rfl, rfl, nofun⟩
  | cons job rest ih =>
    unfold runJobs at h
    split at h
    · cases h
      exact ⟨[], rfl, rfl, nofun⟩
    · -- what is carried out after the first job starts where it leaves
      have hrest : ∀ {completed' : Completed},
          runJobs perform ticket deadline rest (perform job.pool job.operation s).2 =
            (completed', left, reached, s') →
          (∀ outcome, completed.lookup ticket = some outcome →
            completed'.lookup ticket = some outcome) →
          ∃ done, job :: rest = done ++ left ∧ s' = carryOut perform done s
            ∧ ∀ outcome, completed.lookup ticket = some outcome → ∃ before job,
              done = before ++ [job] ∧ job.ticket = ticket
              ∧ (perform job.pool job.operation (carryOut perform before s)).1 =
                .returned outcome := by
        intro completed' hrun hlookup
        obtain ⟨done, rfl, hs', hdone⟩ := ih hrun
        refine ⟨job :: done, rfl, hs', ?_⟩
        intro outcome houtcome
        obtain ⟨before, last, rfl, hticket, hperform⟩ := hdone outcome (hlookup outcome houtcome)
        exact ⟨job :: before, last, rfl, hticket, hperform⟩
      cases hending : (perform job.pool job.operation s).1 with
      | broken breakage =>
        simp only [hending] at h
        exact hrest h fun outcome houtcome => houtcome
      | returned outcome =>
        simp only [hending] at h
        split at h
        · next hticket =>
          cases h
          refine ⟨[job], rfl, rfl, ?_⟩
          intro outcome' houtcome
          rw [hticket, List.lookup_cons_self] at houtcome
          cases houtcome
          exact ⟨[], job, rfl, hticket, hending⟩
        · next hticket =>
          rcases hrun : runJobs perform ticket deadline rest (perform job.pool job.operation s).2
            with ⟨completed', left', reached', s''⟩
          simp only [hrun] at h
          cases h
          refine hrest hrun fun outcome' houtcome => ?_
          have hne : (ticket == job.ticket) = false := beq_eq_false_iff_ne.mpr fun heq =>
            hticket heq.symm
          rwa [List.lookup_cons, hne] at houtcome

/-- A job is put somewhere between the others. -/
theorem insertJob_perm (job : Job) (jobs : List Job) : (insertJob job jobs).Perm (job :: jobs) := by
  induction jobs with
  | nil => exact .refl _
  | cons first rest ih =>
    unfold insertJob
    split
    · exact .refl _
    · exact (ih.cons first).trans (.swap job first rest)

end Dispatcher

namespace Clusters

variable {c c' : Clusters} {ref other : PoolRef} {operation : Operation} {key : String}
variable {outcome : Outcome}

theorem carryOut_with_dispatcher (jobs : List Job) (c : Clusters) (d : Dispatcher) :
    Dispatcher.carryOut perform jobs { c with dispatcher := d } =
      { Dispatcher.carryOut perform jobs c with dispatcher := d } := by
  induction jobs generalizing c with
  | nil => rfl
  | cons job rest ih =>
    show Dispatcher.carryOut perform rest (({ c with dispatcher := d } : Clusters).perform job.pool
      job.operation).2 = _
    rw [perform_with_dispatcher]
    exact ih _

theorem isSome_poolAt?_carryOut (h : (c.poolAt? ref).isSome) (jobs : List Job) :
    ((Dispatcher.carryOut perform jobs c).poolAt? ref).isSome := by
  induction jobs generalizing c with
  | nil => exact h
  | cons job rest ih => exact ih (isSome_poolAt?_perform h _ _)

/-- The bytes of an object stay the same under all jobs that do not change it. -/
theorem content?_carryOut {jobs : List Job}
    (h : ∀ job ∈ jobs, job.pool = ref → ¬ job.operation.Changes key) :
    (Dispatcher.carryOut perform jobs c).content? ref key = c.content? ref key := by
  induction jobs generalizing c with
  | nil => rfl
  | cons job rest ih =>
    obtain ⟨hfirst, hrest⟩ := List.forall_mem_cons.mp h
    exact (ih hrest).trans (content?_perform hfirst)

/-! ## Operations that pass through the clusters -/

/-- Nothing that would change the object is outstanding. -/
def Quiet (c : Clusters) (ref : PoolRef) (key : String) : Prop :=
  ∀ job ∈ c.dispatcher.jobs, job.pool = ref → ¬ job.operation.Changes key

instance Quiet.decidable (c : Clusters) (ref : PoolRef) (key : String) :
    Decidable (c.Quiet ref key) :=
  inferInstanceAs (Decidable
    (∀ job ∈ c.dispatcher.jobs, job.pool = ref → ¬ job.operation.Changes key))

/-- An operation ends with `outcome` and leaves the clusters `c'`. Either it is carried out, after
some of those that were handed over before. Or it fails, though not for the lack of an object, and
may be carried out or be outstanding like those. -/
inductive Passes (c : Clusters) (ref : PoolRef) (operation : Operation) (outcome : Outcome)
    (c' : Clusters) : Prop
  | carried (before : List Job) (hbefore : before ⊆ c.dispatcher.jobs)
    (hleft : c'.dispatcher.jobs ⊆ c.dispatcher.jobs)
    (hpools : c'.poolAt? = ((Dispatcher.carryOut perform before c).perform ref operation).2.poolAt?)
    (hresult : ((Dispatcher.carryOut perform before c).perform ref operation).1.result = outcome)
  | failed (done : List Job) (failure : Failure) (houtcome : outcome = .error failure)
    (hfound : failure.isNotFound = false)
    (hjobs : ∀ job ∈ done ++ c'.dispatcher.jobs,
      job ∈ c.dispatcher.jobs ∨ job.pool = ref ∧ job.operation = operation)
    (hpools : c'.poolAt? = (Dispatcher.carryOut perform done c).poolAt?)

theorem Passes.isSome_poolAt? (h : c.Passes ref operation outcome c')
    (hpool : (c.poolAt? other).isSome) : (c'.poolAt? other).isSome := by
  cases h with
  | carried before hbefore hleft hpools hresult =>
    rw [hpools]
    exact isSome_poolAt?_perform (isSome_poolAt?_carryOut hpool before) ref operation
  | failed done failure houtcome hfound hjobs hpools =>
    rw [hpools]
    exact isSome_poolAt?_carryOut hpool done

/-- An operation that does not change an object leaves its bytes as they are, however it ends. -/
theorem Passes.spares (h : c.Passes other operation outcome c') (hquiet : c.Quiet ref key)
    (hspares : other = ref → ¬ operation.Changes key) :
    c'.content? ref key = c.content? ref key ∧ c'.Quiet ref key := by
  cases h with
  | carried before hbefore hleft hpools hresult =>
    constructor
    · unfold content?
      rw [hpools]
      have hcarried : (Dispatcher.carryOut perform before c).content? ref key = c.content? ref key :=
        content?_carryOut fun job hjob => hquiet job (hbefore hjob)
      exact (content?_perform hspares).trans hcarried
    · intro job hjob
      exact hquiet job (hleft hjob)
  | failed done failure houtcome hfound hjobs hpools =>
    have hall : ∀ job ∈ done ++ c'.dispatcher.jobs, job.pool = ref →
        ¬ job.operation.Changes key := by
      intro job hjob
      rcases hjobs job hjob with hold | ⟨hpool, hoperation⟩
      · exact hquiet job hold
      · rw [hpool, hoperation]
        exact hspares
    constructor
    · unfold content?
      rw [hpools]
      exact content?_carryOut fun job hjob => hall job (List.mem_append_left _ hjob)
    · intro job hjob
      exact hall job (List.mem_append_right _ hjob)

/-- An operation on an object is carried out on its bytes, or fails, though not for the lack of the
object. -/
theorem Passes.takes (h : c.Passes ref operation outcome c') (hpool : (c.poolAt? ref).isSome)
    (hquiet : c.Quiet ref operation.key) :
    (operation.Takes (c.content? ref operation.key) outcome (c'.content? ref operation.key)
      ∧ c'.Quiet ref operation.key)
    ∨ ∃ failure, outcome = .error failure ∧ failure.isNotFound = false := by
  cases h with
  | carried before hbefore hleft hpools hresult =>
    have hcarried : (Dispatcher.carryOut perform before c).content? ref operation.key =
        c.content? ref operation.key := content?_carryOut fun job hjob => hquiet job (hbefore hjob)
    rcases perform_takes (isSome_poolAt?_carryOut hpool before) operation
      with ⟨outcome', hending, htakes⟩ | ⟨failure, hfailure, hfound⟩
    · left
      rw [hending] at hresult
      have hsame : outcome' = outcome := hresult
      subst hsame
      constructor
      · rw [← hcarried]
        unfold content? at htakes ⊢
        rw [hpools]
        exact htakes
      · intro job hjob
        exact hquiet job (hleft hjob)
    · right
      exact ⟨failure, hresult.symm.trans hfailure, hfound⟩
  | failed done failure houtcome hfound hjobs hpools => exact .inr ⟨failure, houtcome, hfound⟩

theorem perform_dispatcher (c : Clusters) (ref : PoolRef) (operation : Operation) :
    (c.perform ref operation).2.dispatcher = c.dispatcher := by
  unfold perform
  cases c.members[ref.cluster]? <;> rfl

/-- While the caller waits, an operation is carried out at once. -/
theorem perform_passes (c : Clusters) (ref : PoolRef) (operation : Operation) :
    c.Passes ref operation (c.perform ref operation).1.result (c.perform ref operation).2 := by
  refine .carried [] (List.nil_subset _) ?_ rfl rfl
  rw [perform_dispatcher]
  exact List.Subset.refl _

/-- Time passes until a job is carried out, or for as long as the limit. -/
theorem await_split (c : Clusters) (ticket : Nat) (limit : Span) :
    ∃ done, c.dispatcher.jobs = done ++ (c.await ticket limit).2.dispatcher.jobs
      ∧ (c.await ticket limit).2.poolAt? = (Dispatcher.carryOut perform done c).poolAt?
      ∧ ∀ outcome, (c.await ticket limit).1.lookup ticket = some outcome →
        ∃ before job, done = before ++ [job] ∧ job.ticket = ticket
          ∧ ((Dispatcher.carryOut perform before c).perform job.pool job.operation).1 =
            .returned outcome := by
  rcases hrun : Dispatcher.runJobs perform ticket (c.dispatcher.clock + limit.nanos)
    c.dispatcher.jobs c with ⟨completed, left, reached, c₁⟩
  have hawait : c.await ticket limit = (completed,
      { c₁ with dispatcher :=
        { c.dispatcher with jobs := left, clock := max c.dispatcher.clock reached } }) := by
    unfold await Dispatcher.await
    rw [hrun]
  rw [hawait]
  obtain ⟨done, hjobs, hc₁, hdone⟩ := Dispatcher.runJobs_split hrun
  exact ⟨done, hjobs, by rw [← hc₁]; rfl, hdone⟩

/-- An operation is handed over and waited for. -/
theorem await_passes (c : Clusters) (ref : PoolRef) (operation : Operation) (limit : Span)
    {ticket : Nat} (hfresh : ∀ job ∈ c.dispatcher.jobs, job.ticket ≠ ticket) :
    c.Passes ref operation
        ((((c.submit ref operation ticket).await ticket limit).1.lookup ticket).getD
          (.error (.timedOut limit)))
        ((c.submit ref operation ticket).await ticket limit).2
      ∧ ∀ job ∈ ((c.submit ref operation ticket).await ticket limit).2.dispatcher.jobs,
        job ∈ c.dispatcher.jobs ∨ job.ticket = ticket := by
  let own : Job := ⟨ticket, ref, operation,
    c.dispatcher.clock + (c.dispatcher.delay c.dispatcher.handedOver).nanos⟩
  obtain ⟨done, hsplit, hpools, hdone⟩ := await_split (c.submit ref operation ticket) ticket limit
  have hjobs : Dispatcher.insertJob own c.dispatcher.jobs =
      done ++ ((c.submit ref operation ticket).await ticket limit).2.dispatcher.jobs := hsplit
  have hperm : (done ++ ((c.submit ref operation ticket).await ticket
      limit).2.dispatcher.jobs).Perm (own :: c.dispatcher.jobs) := by
    rw [← hjobs]
    exact Dispatcher.insertJob_perm own c.dispatcher.jobs
  have hmem : ∀ job ∈ done ++ ((c.submit ref operation ticket).await ticket limit).2.dispatcher.jobs,
      job = own ∨ job ∈ c.dispatcher.jobs := fun job hjob => List.mem_cons.mp (hperm.mem_iff.mp hjob)
  have hcarry : ∀ jobs, Dispatcher.carryOut perform jobs (c.submit ref operation ticket) =
      { Dispatcher.carryOut perform jobs c with
        dispatcher := (c.submit ref operation ticket).dispatcher } := fun jobs =>
    carryOut_with_dispatcher jobs c _
  constructor
  · cases hlookup : ((c.submit ref operation ticket).await ticket limit).1.lookup ticket with
    | none =>
      refine .failed done (.timedOut limit) rfl rfl ?_ ?_
      · intro job hjob
        rcases hmem job hjob with rfl | hold
        · exact .inr ⟨rfl, rfl⟩
        · exact .inl hold
      · rw [hpools, hcarry]
        rfl
    | some outcome =>
      -- the job with the ticket is the new one, and the last that was carried out
      obtain ⟨before, job, rfl, hticket, hperform⟩ := hdone outcome hlookup
      have hown : job = own := by
        rcases hmem job (by simp) with rfl | hold
        · rfl
        · exact absurd hticket (hfresh job hold)
      subst hown
      have hothers : (before ++ ((c.submit ref operation ticket).await ticket
          limit).2.dispatcher.jobs).Perm c.dispatcher.jobs := by
        rw [List.append_assoc, List.singleton_append] at hperm
        exact (List.perm_middle.symm.trans hperm).cons_inv
      rw [hcarry, perform_with_dispatcher] at hperform
      refine .carried before ?_ ?_ ?_ ?_
      · intro job hjob
        exact hothers.mem_iff.mp (List.mem_append_left _ hjob)
      · intro job hjob
        exact hothers.mem_iff.mp (List.mem_append_right _ hjob)
      · rw [hpools, hcarry, Dispatcher.carryOut, List.foldl_append]
        rfl
      · exact congrArg Ending.result hperform
  · intro job hjob
    rcases hmem job (List.mem_append_right _ hjob) with rfl | hold
    · exact .inr rfl
    · exact .inl hold

/-! ## Objects at rest -/

/-- An object of a pool in memory has these bytes, and nothing that would change it is
outstanding. -/
structure Rests (c : Clusters) (ref : PoolRef) (key : String) (content : Option Bytes) : Prop where
  pool : (c.poolAt? ref).isSome
  quiet : c.Quiet ref key
  content : c.content? ref key = content

variable {content : Option Bytes}

theorem Rests.passes (h : c.Rests ref key content) (hpasses : c.Passes other operation outcome c')
    (hspares : other = ref → ¬ operation.Changes key) : c'.Rests ref key content := by
  obtain ⟨hcontent, hquiet⟩ := hpasses.spares h.quiet hspares
  exact ⟨hpasses.isSome_poolAt? h.pool, hquiet, hcontent.trans h.content⟩

theorem isSome_poolAt?_createPool (h : (c.poolAt? ref).isSome) (other : PoolRef) :
    ((c.createPool other).2.poolAt? ref).isSome := by
  obtain ⟨p, hp⟩ := Option.isSome_iff_exists.mp h
  rw [c.poolAt?_createPool_of_some other hp]
  rfl

theorem Rests.createPool (h : c.Rests ref key content) (other : PoolRef) :
    (c.createPool other).2.Rests ref key content := by
  refine ⟨isSome_poolAt?_createPool h.pool other, ?_, ?_⟩
  · intro job hjob
    rw [(c.createPool_keeps other).2] at hjob
    exact h.quiet job hjob
  · rw [content?_createPool]
    exact h.content

theorem isSome_poolAt?_await (h : (c.poolAt? ref).isSome) (ticket : Nat) (limit : Span) :
    ((c.await ticket limit).2.poolAt? ref).isSome := by
  obtain ⟨done, -, hpools, -⟩ := c.await_split ticket limit
  rw [hpools]
  exact isSome_poolAt?_carryOut h done

/-- What is carried out while time passes does not change the object. -/
theorem Rests.await (h : c.Rests ref key content) (ticket : Nat) (limit : Span) :
    (c.await ticket limit).2.Rests ref key content := by
  obtain ⟨done, hjobs, hpools, -⟩ := c.await_split ticket limit
  have hquiet := h.quiet
  unfold Quiet at hquiet
  rw [hjobs] at hquiet
  refine ⟨isSome_poolAt?_await h.pool ticket limit, ?_, ?_⟩
  · intro job hjob
    exact hquiet job (List.mem_append_right _ hjob)
  · unfold content?
    rw [hpools]
    have hcarried : (Dispatcher.carryOut perform done c).content? ref key = c.content? ref key :=
      content?_carryOut fun job hjob => hquiet job (List.mem_append_left _ hjob)
    exact hcarried.trans h.content

end Clusters

end DavGateway
