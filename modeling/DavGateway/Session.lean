import DavGateway.Flow
import DavGateway.Store.Client

/-!
# Sessions

What one request does with its pool, as a flow over calls that follow each other: operations on
objects, and the steps of a listing. `SessionM` adds failures to the flow; `Session.stat`,
`Session.read`, `Session.write` and `Session.remove` also look at the kind of the reply.
-/

namespace DavGateway

/-- A call within a session. -/
inductive SessionCall where
  | operate (operation : Operation)
  | list
  | advance (next : Option String)
deriving DecidableEq, Repr

/-- What the calls answer: how the operation ended, the keys of the listing in its order, and
whether the listing came to its next key, or to its end. -/
def SessionCall.Answer : SessionCall → Type
  | .operate _ => Outcome
  | .list => Except Failure (List String)
  | .advance _ => Except Failure Unit

/-- A session that is open: its slot, its wake channel if it goes across the bridge, its pool, and
how long it waits for an operation. -/
structure OpenSession where
  slot : Nat
  channel : Option Nat
  pool : PoolRef
  limit : Span
deriving DecidableEq, Repr

/-- A flow over the calls of a session. -/
abbrev SessionFlow (β α : Type) := Flow SessionCall SessionCall.Answer β α

/-- A flow over the calls of a session that can fail. -/
abbrev SessionM (β : Type) := ExceptT Failure (Flow SessionCall SessionCall.Answer β)

namespace Session

variable {β : Type}

/-- Carries an operation out. -/
def operate (operation : Operation) : SessionM β Reply :=
  ExceptT.mk (Flow.call (R := SessionCall.Answer) (.operate operation))

/-- Opens a listing. -/
def list : SessionM β (List String) := ExceptT.mk (Flow.call (R := SessionCall.Answer) .list)

/-- Takes a listing on to a key, or past the last one. -/
def advance (next : Option String) : SessionM β Unit :=
  ExceptT.mk (Flow.call (R := SessionCall.Answer) (.advance next))

/-- Hands an item out. -/
def emit (item : β) : SessionM β Unit := ExceptT.mk (.emit item (.done (.ok ())))

/-- Does something and looks at how it ends. -/
def attempt {α : Type} (x : SessionM β α) : SessionM β (Except Failure α) :=
  ExceptT.mk (x.run.bind fun result => .done (.ok result))

/-- A reply of the wrong kind. -/
def unexpected (name : String) (reply : Reply) : Failure :=
  .internal ("unexpected reply to " ++ name ++ ": " ++ reply.text)

/-- Size and time of an object. -/
def stat (key : String) : SessionM β ObjectStat := do
  match ← operate (.stat key) with
  | .stat stat => return stat
  | reply => throw (unexpected "stat" reply)

/-- The bytes of an object from `offset` on, at most `length` of them. -/
def read (key : String) (length offset : Nat) : SessionM β Bytes := do
  match ← operate (.read key length offset) with
  | .data bytes => return bytes
  | reply => throw (unexpected "read" reply)

/-- Lays data over an object. -/
def write (key : String) (data : Bytes) (offset : Nat) : SessionM β Unit := do
  let _ ← operate (.write key data offset)

/-- Takes an object away. -/
def remove (key : String) : SessionM β Unit := do
  let _ ← operate (.remove key)

/-- Goes through a listing to its end, and hands out what each step answers. -/
def visit : List String → SessionM (Except Failure String) Unit
  | [] => do
    if let .error failure ← attempt (advance none) then emit (.error failure)
  | key :: rest => do
    let step ← attempt (advance (some key))
    emit (step.map fun _ => key)
    visit rest

end Session

end DavGateway
