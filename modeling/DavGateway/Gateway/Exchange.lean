import DavGateway.Engine
import DavGateway.Http.Serve

/-!
# Exchanges

One exchange with a client: a request is answered, then the body of the response is read to its
end or dropped. A session that the body needs is closed after that, in either case.
-/

namespace DavGateway

namespace Engine

variable {σ : Type}

/-- Answers a call of a request. There is no answer while the call waits for a slot. -/
def respond (client : StoreClient σ) :
    (call : GatewayCall) → OptionT (StateM (Engine σ)) call.Answer
  | .enter pool limit => enter pool limit
  | .within session call =>
    let answering : StateM (Engine σ) call.Answer := answer client session call
    answering
  | .leave session =>
    let leaving : StateM (Engine σ) Unit := leave session
    leaving
  | .createPool ref =>
    let creating : StateM (Engine σ) (Except Failure Unit) := onStore (client.createPool ref)
    creating

/-- Answers a request. There is no response while it waits for a slot. -/
def handle (client : StoreClient σ) (table : MountTable) (r : Http.Request) :
    OptionT (StateM (Engine σ)) Http.Response :=
  (Http.serve table r).run (respond client)

/-- Drops the body of a response. -/
def dropBody (body : Http.Body) : StateM (Engine σ) Unit :=
  match body.session? with
  | some session => leave session
  | none => pure ()

/-- Answers the calls of a body. Without a session there are none, and a call would fail. -/
def bodyAnswer (client : StoreClient σ) (session : Option OpenSession) :
    (call : SessionCall) → StateM (Engine σ) call.Answer :=
  match session with
  | some session => answer client session
  | none => fun
    | .operate _ => pure (.error (.internal "no session"))
    | .list => pure (.error (.internal "no session"))
    | .advance _ => pure (.error (.internal "no session"))

/-- Reads the body of a response to its end: the chunks, and the failure that ended it if there was
one. -/
def readBody (client : StoreClient σ) (body : Http.Body) :
    StateM (Engine σ) (List Bytes × Option Failure) :=
  match body with
  | .whole bytes => pure (if bytes.isEmpty then [] else [bytes], none)
  | .streamed session flow => do
    let (chunks, result) ← flow.collect (bodyAnswer client session)
    dropBody body
    match result with
    | .ok () => return (chunks, none)
    | .error failure => return (chunks, some failure)

end Engine

end DavGateway
