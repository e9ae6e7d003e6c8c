import DavGateway.Proofs.Store.Memory

/-!
# Waiting for an operation that was handed over

While nothing else is to be carried out, an operation that was handed over is carried out during the
wait for it, if its delay is not longer than the wait.
-/

namespace DavGateway.Clusters

variable {c c' : Clusters} {ref : PoolRef} {p : MemoryPool} {operation : Operation}

/-- Operations do not look at what was handed over. -/
theorem perform_with_dispatcher (c : Clusters) (d : Dispatcher) (ref : PoolRef)
    (operation : Operation) : ({ c with dispatcher := d }).perform ref operation =
      ((c.perform ref operation).1, { (c.perform ref operation).2 with dispatcher := d }) := by
  unfold perform
  cases c.members[ref.cluster]? <;> rfl

/-- An operation that was handed over is carried out by the wait for it. -/
theorem await_alone (hidle : c.dispatcher.jobs = []) {limit : Span}
    (hprompt : ∀ number, (c.dispatcher.delay number).nanos ≤ limit.nanos) {outcome : Outcome}
    (hperform : c.perform ref operation = (.returned outcome, c')) (ticket : Nat) :
    ∃ d, (c.submit ref operation ticket).await ticket limit =
        ([(ticket, outcome)], { c' with dispatcher := d })
      ∧ d.jobs = [] ∧ d.delay = c.dispatcher.delay := by
  have hdue := Nat.add_le_add_left (hprompt c.dispatcher.handedOver) c.dispatcher.clock
  let due := c.dispatcher.clock + (c.dispatcher.delay c.dispatcher.handedOver).nanos
  let handed := c.dispatcher.submit ref operation ticket
  have hjobs : handed.jobs = [⟨ticket, ref, operation, due⟩] := by
    simp only [handed, due, Dispatcher.submit, hidle, Dispatcher.insertJob]
  have hsubmitted : perform ref operation (c.submit ref operation ticket) =
      (.returned outcome, { c' with dispatcher := handed }) := by
    show ({ c with dispatcher := handed }).perform ref operation = _
    rw [perform_with_dispatcher, hperform]
  have hrun : Dispatcher.runJobs perform ticket (c.dispatcher.clock + limit.nanos) handed.jobs
      (c.submit ref operation ticket) =
        ([(ticket, outcome)], [], due, { c' with dispatcher := handed }) := by
    rw [hjobs]
    simp only [Dispatcher.runJobs, due, if_neg (Nat.not_lt_of_le hdue), hsubmitted, if_true]
  refine ⟨{ handed with jobs := [], clock := max handed.clock due }, ?_, rfl, rfl⟩
  show (match Dispatcher.runJobs perform ticket (c.dispatcher.clock + limit.nanos) handed.jobs
      (c.submit ref operation ticket) with
    | (completed, left, reached, s) => (completed,
      ({ s with dispatcher := { handed with jobs := left, clock := max handed.clock reached } } :
        Clusters))) = _
  rw [hrun]

/-- A small operation on a pool in memory that was handed over is completed by the wait for it. -/
theorem await_submit (h : c.poolAt? ref = some p) (hidle : c.dispatcher.jobs = [])
    {limit : Span} (hprompt : ∀ number, (c.dispatcher.delay number).nanos ≤ limit.nanos)
    (hsmall : (SessionCall.operate operation).Small) (ticket : Nat) :
    ∃ c', (c.submit ref operation ticket).await ticket limit =
        ([(ticket, (p.perform c.now operation).1.result)], c')
      ∧ (∀ other, c'.poolAt? other =
        if other = ref then some (p.perform c.now operation).2 else c.poolAt? other)
      ∧ c'.now = c.now ∧ c'.dispatcher.jobs = [] ∧ c'.dispatcher.delay = c.dispatcher.delay := by
  rcases perform_of_poolAt? h operation with ⟨c', hperform, hpools, hnow, -⟩
  rcases p.perform_returns c.now hsmall with ⟨result, hresult⟩
  rw [hresult] at hperform
  rcases await_alone hidle hprompt hperform ticket with ⟨d, hawait, hjobs, hdelay⟩
  refine ⟨{ c' with dispatcher := d }, ?_, hpools, hnow, hjobs, hdelay⟩
  rw [hawait, hresult]
  rfl

end DavGateway.Clusters
