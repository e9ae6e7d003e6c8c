import DavGateway.Bytes
import DavGateway.Failure
import DavGateway.Text.Quoted

/-!
# Store operations

What can be asked of a pool of objects, and what it answers.
-/

namespace DavGateway

/-- What a store knows about an object: its size in bytes, and when it was last changed, in
seconds from the start of 1970. -/
structure ObjectStat where
  size : Nat
  mtime : Int
deriving DecidableEq, Repr

/-- One operation on the objects of a pool. -/
inductive Operation where
  | stat (key : String)
  | read (key : String) (length offset : Nat)
  | write (key : String) (data : Bytes) (offset : Nat)
  | remove (key : String)
deriving DecidableEq, Repr

namespace Operation

/-- The object that the operation is about. -/
def key : Operation → String
  | .stat key => key
  | .read key _ _ => key
  | .write key _ _ => key
  | .remove key => key

/-- The name of the operation. -/
def name : Operation → String
  | .stat _ => "stat"
  | .read _ _ _ => "read"
  | .write _ _ _ => "write"
  | .remove _ => "remove"

end Operation

/-- What a store answers to an operation that succeeds. -/
inductive Reply where
  | done
  | stat (stat : ObjectStat)
  | data (bytes : Bytes)
deriving DecidableEq, Repr

/-- A reply as it is shown in an error text. -/
def Reply.text : Reply → String
  | .done => "Done"
  | .stat s =>
    "Stat(ObjectStat \x7b size: " ++ toString s.size ++ ", mtime: " ++ toString s.mtime ++ " \x7d)"
  | .data bytes => "Data(" ++ Text.quotedBytes bytes ++ ")"

/-- How an operation ends. -/
abbrev Outcome := Except Failure Reply

/-- What breaks a store call off: a length or an offset that no memory can hold. The sum that is too
large is noticed where sums are checked for overflow. Where they wrap around, such a call breaks off
as well, but later and with another text. -/
inductive Breakage where
  | lengthOverflow
  | capacityOverflow
deriving DecidableEq, Repr

/-- The wording of a breakage. -/
def Breakage.message : Breakage → String
  | .lengthOverflow => "attempt to add with overflow"
  | .capacityOverflow => "capacity overflow"

/-- How a store call ends: it returns, or it breaks off half way. -/
inductive Ending (α : Type) where
  | returned (result : Except Failure α)
  | broken (breakage : Breakage)
deriving Repr

namespace Ending

/-- The ending with another result. -/
def map {α β : Type} (f : α → β) : Ending α → Ending β
  | .returned result => .returned (result.map f)
  | .broken breakage => .broken breakage

/-- The result of the call, with a breakage reported as a failure inside the gateway. -/
def result {α : Type} : Ending α → Except Failure α
  | .returned result => result
  | .broken breakage => .error (.internal breakage.message)

end Ending

end DavGateway
