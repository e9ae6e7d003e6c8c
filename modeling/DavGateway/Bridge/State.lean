/-!
# The bridge of a slot

A bridge belongs to one slot and outlives its requests. Each request opens a session, which reads
a wake channel of its own; each operation is stamped with a fresh generation. A completion that
fires wakes the channel the bridge holds only if its stamp is the live generation, so that a
completion which comes too late wakes nobody.
-/

namespace DavGateway

/-- The shared state of one slot's bridge. `wake` is the session whose channel the bridge can
send to; `queues` holds, for every open session, the units queued in its channel. -/
structure Bridge where
  slot : Nat
  generation : Nat := 0
  wake : Option Nat := none
  queues : List (Nat × Nat) := []
  opened : Nat := 0
deriving DecidableEq, Repr

/-- What a reader finds in its channel: a unit, the end of the channel, or nothing yet. -/
inductive Signal where
  | woken
  | closed
  | idle
deriving DecidableEq, Repr

namespace Bridge

/-- The bridge of a slot that has not been used. -/
def fresh (slot : Nat) : Bridge := { slot := slot }

/-- The units queued for a session, if it is open. -/
def queued? (b : Bridge) (session : Nat) : Option Nat := b.queues.lookup session

/-- Changes the number of units queued for a session. -/
def setQueued (b : Bridge) (session : Nat) (f : Nat → Nat) : Bridge :=
  { b with queues := b.queues.map fun entry =>
      if entry.1 = session then (entry.1, f entry.2) else entry }

/-- Opens a session. Its channel replaces the one that the bridge sent to before. -/
def openSession (b : Bridge) : Nat × Bridge :=
  (b.opened,
    { b with wake := some b.opened, queues := b.queues ++ [(b.opened, 0)], opened := b.opened + 1 })

/-- Closes a session. The bridge then sends to no channel at all. -/
def closeSession (b : Bridge) (session : Nat) : Bridge :=
  { b with wake := none, queues := b.queues.filter fun entry => entry.1 != session }

/-- Starts the next generation. -/
def bump (b : Bridge) : Nat × Bridge :=
  (b.generation + 1, { b with generation := b.generation + 1 })

/-- Throws away the units queued for a session. -/
def drain (b : Bridge) (session : Nat) : Bridge := b.setQueued session fun _ => 0

/-- A completion with the given stamp fires. -/
def fire (b : Bridge) (stamp : Nat) : Bridge :=
  if b.generation = stamp then
    match b.wake with
    | some session => b.setQueued session (· + 1)
    | none => b
  else b

/-- Reads the channel of a session: a queued unit is taken out, and an empty channel is closed if
the bridge does not send to it. -/
def poll (b : Bridge) (session : Nat) : Signal × Bridge :=
  match b.queued? session with
  | some (n + 1) => (.woken, b.setQueued session fun _ => n)
  | _ => (if b.wake = some session then .idle else .closed, b)

/-- Gives up the operation with the given stamp: its generation ends if it is the live one. -/
def abandon (b : Bridge) (stamp : Nat) : Bridge :=
  if b.generation = stamp then { b with generation := b.generation + 1 } else b

end Bridge

end DavGateway
