import DavGateway.Failure
import DavGateway.Http.Request
import DavGateway.Http.Status

/-!
# Problems

A request that is not served is answered with a status. The message says more, but does not reach
the client; a client whose method is refused is told which ones are allowed.
-/

namespace DavGateway.Http

/-- Why a request is not served. -/
structure Problem where
  status : Nat
  message : String
  allow : Option String := none
deriving DecidableEq, Repr

namespace Problem

/-- The request is wrong. -/
def badRequest (message : String) : Problem := ⟨400, message, none⟩

/-- The request is refused. -/
def forbidden (message : String) : Problem := ⟨403, message, none⟩

/-- There is nothing at the path. -/
def notFound (message : String) : Problem := ⟨404, message, none⟩

/-- The method is refused; `allow` lists the others. -/
def methodNotAllowed (allow : String) : Problem := ⟨405, "method not allowed", some allow⟩

/-- What is to be made is there already. -/
def conflict (message : String) : Problem := ⟨409, message, none⟩

/-- The gateway itself failed. -/
def internal (message : String) : Problem := ⟨500, message, none⟩

/-- The problem that a failure is to a client. -/
def ofFailure (failure : Failure) : Problem :=
  match failure with
  | .objectNotFound _ | .poolNotFound _ => notFound failure.message
  | .poolExists _ => conflict failure.message
  | .invalidRequest _ | .body _ => badRequest failure.message
  | _ => internal failure.message

/-- The text that is sent for a problem. -/
def text (p : Problem) : String := toString p.status ++ " " ++ reason p.status ++ "\n"

/-- The header fields that are sent for a problem. A list of methods that cannot stand in a header
field is left out. -/
def headers (p : Problem) : List (String × String) :=
  ("content-type", "text/plain; charset=utf-8") ::
    match p.allow.filter fun allow => (Bytes.ofText allow).all Request.isFieldByte with
    | some allow => [("allow", allow)]
    | none => []

end Problem

end DavGateway.Http
