import DavGateway.Store.Client

/-!
# Handing operations over

Operations that are handed over are carried out later, each after a delay of its own, while the
one who handed them over waits. Time passes only in waits. An operation that nobody waits for any
longer is still carried out when its time has come.
-/

namespace DavGateway

/-- An operation that was handed over, and the instant at which it is carried out. -/
structure Job where
  ticket : Nat
  pool : PoolRef
  operation : Operation
  due : Nat
deriving DecidableEq, Repr

/-- The operations handed over, in the order in which they are carried out. The clock counts
nanoseconds, and `delay` gives the delay of every operation by its number. -/
structure Dispatcher where
  jobs : List Job := []
  clock : Nat := 0
  handedOver : Nat := 0
  delay : Nat → Span := fun _ => ⟨0⟩

instance : Inhabited Dispatcher := ⟨{}⟩

namespace Dispatcher

/-- Puts a job behind all that are due no later. -/
def insertJob (job : Job) : List Job → List Job
  | [] => [job]
  | first :: rest =>
    if job.due < first.due then job :: first :: rest else first :: insertJob job rest

/-- Hands an operation over. -/
def submit (d : Dispatcher) (pool : PoolRef) (operation : Operation) (ticket : Nat) : Dispatcher :=
  let job : Job := ⟨ticket, pool, operation, d.clock + (d.delay d.handedOver).nanos⟩
  { d with jobs := insertJob job d.jobs, handedOver := d.handedOver + 1 }

/-- Changes the delay of the operations to come. -/
def setDelay (d : Dispatcher) (delay : Span) : Dispatcher := { d with delay := fun _ => delay }

/-- Carries out the jobs in front, one after the other, up to the one with the given ticket or to
the deadline. An operation that breaks off completes nothing. The answer has the jobs left over
and the instant that was reached. -/
def runJobs {σ : Type} (perform : PoolRef → Operation → σ → Ending Reply × σ)
    (ticket deadline : Nat) : List Job → σ → Completed × List Job × Nat × σ
  | [], s => ([], [], deadline, s)
  | job :: rest, s =>
    if deadline < job.due then ([], job :: rest, deadline, s)
    else
      let (ending, s) := perform job.pool job.operation s
      match ending with
      | .broken _ => runJobs perform ticket deadline rest s
      | .returned outcome =>
        if job.ticket = ticket then ([(job.ticket, outcome)], rest, job.due, s)
        else
          let (completed, left, reached, s) := runJobs perform ticket deadline rest s
          ((job.ticket, outcome) :: completed, left, reached, s)

/-- Lets time pass until the job with the given ticket is carried out, at most as long as
`limit`. -/
def await {σ : Type} (d : Dispatcher) (perform : PoolRef → Operation → σ → Ending Reply × σ)
    (ticket : Nat) (limit : Span) (s : σ) : Completed × Dispatcher × σ :=
  let (completed, left, reached, s) := runJobs perform ticket (d.clock + limit.nanos) d.jobs s
  (completed, { d with jobs := left, clock := max d.clock reached }, s)

end Dispatcher

end DavGateway
