import DavGateway.Gateway.Call
import DavGateway.Http.Multistatus
import DavGateway.Http.Response
import DavGateway.Http.Verb
import DavGateway.Mount.Table
import DavGateway.Transfer.Download
import DavGateway.Transfer.Listing
import DavGateway.Transfer.Upload

/-!
# Serving requests

A request is served as a flow of calls. It is decided first, from the path, the method and the
permissions of the mount, whether the request may go on at all; only then a session is opened, and
nothing is asked of the store before. A session is closed before the response is given, except
where the body of the response still needs it.
-/

namespace DavGateway.Http

/-- A flow of calls that ends with a problem or not. -/
abbrev ServeM := ExceptT Problem (Flow GatewayCall GatewayCall.Answer Empty)

/-- The largest number of bytes that a decoded path may have. -/
def longestPath : Nat := 4096

namespace Serve

/-- Goes on unless there is a problem. -/
def ensure {α : Type} (x : Except Problem α) : ServeM α := ExceptT.mk (.done x)

/-- Goes on unless there is a failure, which becomes a problem as `f` says. -/
def require {α : Type} (f : Failure → Problem) (x : GatewayFlow (Except Failure α)) : ServeM α :=
  ExceptT.mk (x.bind fun result => .done (result.mapError f))

/-- Does something within a session. -/
def within {α : Type} (session : OpenSession) (f : Failure → Problem) (x : SessionM Empty α) :
    ServeM α :=
  require f (GatewayFlow.within session x)

/-- Opens a session on the pool of a mount. -/
def enter (mount : Mount) : ServeM OpenSession :=
  require .ofFailure (GatewayFlow.call (.enter mount.ref mount.limit))

/-- Does something with an open session, and closes it afterwards unless the response needs it. -/
def closing (session : OpenSession) (body : ServeM Response) : ServeM Response :=
  ExceptT.mk <| body.run.bind fun result =>
    let keeps := match result with
      | .ok response => response.body.session? == some session
      | .error _ => false
    if keeps then .done result
    else (GatewayFlow.call (.leave session)).bind fun _ => .done result

/-! ## Parts of the answers -/

/-- The answer to a question about the allowed methods. -/
def optionsResponse (p : Permissions) : Response :=
  { status := 200, headers := [("dav", "1"), ("allow", p.allowed)] }

/-- Takes the body of a request in, and forgets it. -/
def drain (body : List (Except String Bytes)) : Except Problem Unit :=
  match body.findSome? fun | .error text => some text | .ok _ => none with
  | some text => .error (.badRequest text)
  | none => .ok ()

/-- The length that a request says its body has. -/
def declaredLength (r : Request) : Except Problem (Option Nat) :=
  match r.header? "content-length" with
  | none => .ok none
  | some value =>
    match (Request.visible? value).bind fun text => Text.readWord? (Text.trim text) with
    | some length => .ok (some length)
    | none => .error (.badRequest "invalid Content-Length")

/-- Has an object not been changed since the time that a request names? A time that cannot be read
is no time. -/
def isUnmodified (r : Request) (stat : ObjectStat) : Bool :=
  let since := ((r.header? "if-modified-since").bind Request.visible?).bind fun text =>
    HttpDate.read? (String.ofList text)
  since.any fun since => stat.mtime ≤ since

/-- The header fields that describe an object. -/
def objectHeaders (key : String) (stat : ObjectStat) : List (String × String) :=
  [("content-type", (MediaType.guess? key).getD MediaType.fallback),
    ("last-modified", HttpDate.format stat.mtime), ("content-length", toString stat.size)]

/-- An object as the answer, with its bytes or without. -/
def objectResponse (r : Request) (session : OpenSession) (key : String) (stat : ObjectStat)
    (withBody : Bool) : Response :=
  if isUnmodified r stat then { status := 304 }
  else
    { status := 200, headers := objectHeaders key stat,
      body :=
        if withBody then .streamed (some session) (Download.run Download.usualChunk key stat.size).run
        else .whole [] }

/-- Uploads the body of a request. -/
def upload (r : Request) (session : OpenSession) (key : String) (replaces : Bool) :
    ServeM Response := do
  let declared ← ensure (declaredLength r)
  let frames := r.body.map fun frame => frame.mapError Failure.body
  let _ ← within session .ofFailure
    (Upload.run Upload.usualChunk ⟨key, frames, declared, replaces⟩)
  return { status := 201 }

/-- The root of a mount as a document: itself, or its members as they are found. -/
def rootResponse (mount : Mount) : Depth → ServeM Response
  | .itself => return .multistatus none (Multistatus.single (.collection mount.base))
  | .members => do
    let session ← enter mount
    let entries := Listing.run.run.mapItems fun o => Entry.object mount.base o.key o.stat
    return .multistatus (some session) (Multistatus.document entries)

/-! ## Requests -/

/-- Looks an object up, which may be missing. -/
def lookUp (session : OpenSession) (key : String) : ServeM (Option ObjectStat) := do
  match ← within session .ofFailure (Session.attempt (Session.stat key)) with
  | .ok stat => return some stat
  | .error failure =>
    if failure.isNotFound then return none else throw (.internal failure.message)

/-- Serves a request for the root of a mount. -/
def onRoot (r : Request) (mount : Mount) (verb : Verb) : ServeM Response := do
  if verb = .propfind ∧ mount.permissions.propfind then
    let depth ← ensure (Depth.ofRequest r)
    ensure (drain r.body)
    rootResponse mount depth
  else throw (.methodNotAllowed mount.permissions.allowed)

/-- Makes a pool beside that of a mount. -/
def makePool (mount : Mount) (key : String) : ServeM Response := do
  require .ofFailure
    (GatewayFlow.createPool ⟨mount.ref.cluster, Text.withoutEndSlashes key⟩)
  return { status := 201 }

/-- Serves a request for an object that was looked up. -/
def onObject (r : Request) (mount : Mount) (verb : Verb) (key : String) (session : OpenSession) :
    Option ObjectStat → ServeM Response
  | none =>
    if verb = .put then upload r session key false
    else throw (.notFound ("object not found: " ++ key))
  | some stat => do
    match verb with
    | .put => upload r session key true
    | .delete =>
      within session (fun failure => .forbidden failure.message) (Session.remove key)
      return { status := 200 }
    | .propfind =>
      ensure (drain r.body)
      return .multistatus none (Multistatus.single (.object mount.base key stat))
    | .get => return objectResponse r session key stat true
    | .head => return objectResponse r session key stat false
    | .options | .mkcol => throw (.methodNotAllowed mount.permissions.allowed)

/-- Serves a request for something below the root of a mount. -/
def onKey (r : Request) (mount : Mount) (verb : Verb) (key : String) : ServeM Response := do
  if !verb.isPermitted mount.permissions then
    throw (.methodNotAllowed mount.permissions.allowed)
  else if verb = .mkcol then makePool mount key
  else
    ensure ((Names.checkKey key).mapError .ofFailure)
    let session ← enter mount
    closing session do
      let stat ← lookUp session key
      onObject r mount verb key session stat

/-- The mount and the key that a request is for. -/
def locate (table : MountTable) (r : Request) : Except Problem Destination := do
  if r.path = "" then throw (.forbidden "empty path")
  match Percent.decode? r.path with
  | none => throw (.badRequest "malformed path")
  | some path =>
    if longestPath < path.utf8ByteSize then throw (.forbidden "path too long")
    match table.resolve path with
    | none => throw (.notFound ("no mount for " ++ path))
    | some destination => return destination

/-- Serves a request. -/
def request (table : MountTable) (r : Request) : ServeM Response := do
  let ⟨mount, key⟩ ← ensure (locate table r)
  match Verb.ofMethod? r.method with
  | none => throw (.methodNotAllowed mount.permissions.allowed)
  | some .options => return optionsResponse mount.permissions
  | some verb =>
    match key with
    | none => onRoot r mount verb
    | some key => onKey r mount verb key

end Serve

/-- Answers a request: every problem becomes a response. -/
def serve (table : MountTable) (r : Request) : GatewayFlow Response :=
  (Serve.request table r).run.bind fun
    | .ok response => .done response.framed
    | .error problem => .done (Response.ofProblem problem).framed

end DavGateway.Http
