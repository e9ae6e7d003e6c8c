import DavGateway.Http.Problem
import DavGateway.Mount.Permissions

/-!
# Verbs

The methods that the gateway knows, and how deep a listing goes.
-/

namespace DavGateway.Http

/-- A method that the gateway knows. -/
inductive Verb where
  | options
  | get
  | head
  | put
  | delete
  | mkcol
  | propfind
deriving DecidableEq, Repr

namespace Verb

/-- The verb of a method. -/
def ofMethod? : String → Option Verb
  | "OPTIONS" => some .options
  | "GET" => some .get
  | "HEAD" => some .head
  | "PUT" => some .put
  | "DELETE" => some .delete
  | "MKCOL" => some .mkcol
  | "PROPFIND" => some .propfind
  | _ => none

/-- The permission that a verb needs. -/
def guarded? : Verb → Option GuardedVerb
  | .put => some .put
  | .delete => some .delete
  | .mkcol => some .mkcol
  | .propfind => some .propfind
  | .options | .get | .head => none

/-- Is a verb allowed? -/
def isPermitted (v : Verb) (p : Permissions) : Bool := v.guarded?.all p.allows

end Verb

/-- How deep a listing goes: the collection itself, or its members. -/
inductive Depth where
  | itself
  | members
deriving DecidableEq, Repr

/-- Reads the depth that a request asks for. Every depth beyond zero lists the members. -/
def Depth.ofRequest (r : Request) : Except Problem Depth :=
  match r.header? "depth" with
  | none => .ok .itself
  | some value =>
    match Request.visible? value with
    | none => .error (.badRequest "invalid Depth header")
    | some text =>
      let text := Text.trim text
      if String.ofList (Text.lowered text) = "infinity" then .ok .members
      else match Text.readWord? text with
        | some 0 => .ok .itself
        | some _ => .ok .members
        | none => .error (.badRequest ("invalid Depth header: " ++ String.ofList text))

end DavGateway.Http
