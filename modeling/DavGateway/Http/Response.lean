import DavGateway.Http.Problem
import DavGateway.Session

/-!
# Responses

The body of a response is either known as a whole, or it comes as a flow of chunks, for which a
session can be held open until the flow has ended or is dropped.
-/

namespace DavGateway.Http

/-- The body of a response. -/
inductive Body where
  | whole (bytes : Bytes)
  | streamed (session : Option OpenSession) (flow : SessionFlow Bytes (Except Failure Unit))

/-- The session that a body needs. -/
def Body.session? : Body → Option OpenSession
  | .whole _ => none
  | .streamed session _ => session

/-- A response. -/
structure Response where
  status : Nat
  headers : List (String × String) := []
  body : Body := .whole []

namespace Response

/-- The answer to a request that is not served. -/
def ofProblem (p : Problem) : Response := ⟨p.status, p.headers, .whole (Bytes.ofText p.text)⟩

/-- The answer that lists entries. -/
def multistatus (session : Option OpenSession) (flow : SessionFlow Bytes (Except Failure Unit)) :
    Response :=
  ⟨207, [("content-type", "text/xml; charset=\"utf-8\"")], .streamed session flow⟩

/-- The response with the length of its body, unless the length is not known or was given. -/
def framed (r : Response) : Response :=
  match r.body with
  | .streamed _ _ => r
  | .whole bytes =>
    if r.headers.any fun field => field.1 == "content-length" then r
    else { r with headers := r.headers ++ [("content-length", toString bytes.length)] }

end Response

end DavGateway.Http
