import DavGateway.Store.Operation

/-!
# Store clients

What the gateway asks of its stores. A client is given by one function for each question, from
the state of the stores to the answer and the state after it; so the gateway runs against stores
in memory, stores on a disk and stores that fail on purpose without knowing which.
-/

namespace DavGateway

/-- A pool, by the number of its cluster and its name. -/
structure PoolRef where
  cluster : Nat
  pool : String
deriving DecidableEq, Repr, Inhabited

/-- Completions with the outcomes that are recorded in them, in order. -/
abbrev Completed := List (Nat × Outcome)

/-- The questions that a store answers.

`perform` carries an operation out while the caller waits. An operation can also be handed over:
`allocate` provides its completion, `submit` hands it over with the number of the completion, and
`await` lets time pass until the completion has its outcome, at most as long as the limit. The
last two say which completions were completed meanwhile. -/
structure StoreClient (σ : Type) where
  openPool : PoolRef → σ → Except Failure Unit × σ
  createPool : PoolRef → σ → Except Failure Unit × σ
  perform : PoolRef → Operation → σ → Outcome × σ
  list : PoolRef → σ → Except Failure (List String) × σ
  advance : PoolRef → Option String → σ → Except Failure Unit × σ
  allocate : PoolRef → σ → Except Failure Unit × σ
  submit : PoolRef → Operation → Nat → σ → (Except Failure Unit × Completed) × σ
  await : Nat → Span → σ → Completed × σ

end DavGateway
