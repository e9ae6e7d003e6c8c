import DavGateway.Failure

/-!
# Slots

A pool of slots hands each of the slots `0 … n-1` to one holder at a time. Two things are kept in
step: permits, which are granted to waiters in the order they came, and a stack of free slots, of
which a holder of a permit takes the top one. A permit is granted when a slot is given back, but
the slot is taken only when the waiter is polled.
-/

namespace DavGateway

/-- A pool of slots. `permits` counts the free permits; `queue` holds the waiters without a permit
in the order they came, and `granted` those with one that have not been polled since. -/
structure SlotPool where
  concurrency : Nat
  free : List Nat
  permits : Nat
  queue : List Nat := []
  granted : List Nat := []
  waiters : Nat := 0
deriving DecidableEq, Repr

/-- What an attempt to take a slot comes to. -/
inductive Acquired where
  | slot (index : Nat)
  | failed (failure : Failure)
  | blocked
deriving DecidableEq, Repr

namespace SlotPool

/-- A pool of `concurrency` slots, all of them free. The number is not bounded from above: a machine
makes a pool only if it is a word, there is memory for the lists of slots, and a semaphore can have
as many permits, of which an eighth of the greatest word is the most. -/
def create (concurrency : Nat) : Except Failure SlotPool :=
  if concurrency = 0 then .error (.configuration "concurrency must be at least 1")
  else .ok { concurrency := concurrency, free := List.range concurrency, permits := concurrency }

/-- The number of slots that can be had without waiting. -/
def available (p : SlotPool) : Nat := p.permits

/-- Gives a permit back: the waiter that came first gets it, or else it is free. -/
def returnPermit (p : SlotPool) : SlotPool :=
  match p.queue with
  | waiter :: rest => { p with queue := rest, granted := p.granted ++ [waiter] }
  | [] => { p with permits := p.permits + 1 }

/-- Takes a free slot with a permit in hand. -/
def takeSlot (p : SlotPool) : Acquired × SlotPool :=
  match p.free with
  | index :: rest => (.slot index, { p with free := rest })
  | [] => (.failed (.internal "no free slot behind a granted permit"), p.returnPermit)

/-- Takes a slot if there is a free permit. -/
def acquire (p : SlotPool) : Acquired × SlotPool :=
  if p.permits = 0 then (.blocked, p)
  else { p with permits := p.permits - 1 }.takeSlot

/-- Takes a slot, or joins the queue if there is no free permit. The second answer is the number
of the waiter that joined. -/
def enqueue (p : SlotPool) : Acquired × Option Nat × SlotPool :=
  match p.acquire with
  | (.blocked, p) =>
    (.blocked, some p.waiters, { p with queue := p.queue ++ [p.waiters], waiters := p.waiters + 1 })
  | (acquired, p) => (acquired, none, p)

/-- Asks for a waiter's slot again. There is no answer for a waiter that is not there. -/
def poll (p : SlotPool) (waiter : Nat) : Option Acquired × SlotPool :=
  if waiter ∈ p.granted then
    let (acquired, p) := { p with granted := p.granted.erase waiter }.takeSlot
    (some acquired, p)
  else if waiter ∈ p.queue then (some .blocked, p)
  else (none, p)

/-- A waiter leaves. A permit it was granted goes on to the next one. The answer says whether the
waiter was there. -/
def cancel (p : SlotPool) (waiter : Nat) : Bool × SlotPool :=
  if waiter ∈ p.granted then (true, { p with granted := p.granted.erase waiter }.returnPermit)
  else if waiter ∈ p.queue then (true, { p with queue := p.queue.erase waiter })
  else (false, p)

/-- Gives a slot back: first the slot, then its permit. -/
def release (p : SlotPool) (index : Nat) : SlotPool :=
  { p with free := index :: p.free }.returnPermit

end SlotPool

end DavGateway
