import DavGateway.Session
import DavGateway.Store.Names

/-!
# Calls of a request

What serving one request asks for: a session on the pool of a mount, calls within it, the end of
the session, and a new pool, for which no session is needed.
-/

namespace DavGateway

/-- A call of a request. -/
inductive GatewayCall where
  | enter (pool : PoolRef) (limit : Span)
  | within (session : OpenSession) (call : SessionCall)
  | leave (session : OpenSession)
  | createPool (ref : PoolRef)
deriving DecidableEq, Repr

/-- What the calls answer. -/
def GatewayCall.Answer : GatewayCall → Type
  | .enter _ _ => Except Failure OpenSession
  | .within _ call => call.Answer
  | .leave _ => Unit
  | .createPool _ => Except Failure Unit

/-- A flow over the calls of a request. -/
abbrev GatewayFlow (α : Type) := Flow GatewayCall GatewayCall.Answer Empty α

namespace GatewayFlow

/-- Makes one call. -/
def call (c : GatewayCall) : GatewayFlow c.Answer := Flow.call c

/-- Runs a flow within a session. -/
def within {α : Type} (session : OpenSession) (body : SessionM Empty α) :
    GatewayFlow (Except Failure α) :=
  body.run.through (GatewayCall.within session) fun _ answer => answer

/-- Makes a pool, if the name is one. -/
def createPool (ref : PoolRef) : GatewayFlow (Except Failure Unit) :=
  match Names.checkPool ref.pool with
  | .error failure => .done (.error failure)
  | .ok () => call (.createPool ref)

end GatewayFlow

end DavGateway
