/-!
# Permissions

Reading is always allowed; the verbs that change something and the listing are allowed one by one.
-/

namespace DavGateway

/-- The verbs that a mount allows only if it is told to. -/
inductive GuardedVerb where
  | put
  | delete
  | mkcol
  | propfind
deriving DecidableEq, Repr

/-- Which of the guarded verbs are allowed. -/
structure Permissions where
  put : Bool := false
  delete : Bool := false
  mkcol : Bool := false
  propfind : Bool := false
deriving DecidableEq, Repr

namespace Permissions

/-- Is the verb allowed? -/
def allows (p : Permissions) : GuardedVerb → Bool
  | .put => p.put
  | .delete => p.delete
  | .mkcol => p.mkcol
  | .propfind => p.propfind

/-- Allows a verb, or forbids it. -/
def set (p : Permissions) (verb : GuardedVerb) (allowed : Bool) : Permissions :=
  match verb with
  | .put => { p with put := allowed }
  | .delete => { p with delete := allowed }
  | .mkcol => { p with mkcol := allowed }
  | .propfind => { p with propfind := allowed }

/-- All allowed verbs, as they are listed for a client. -/
def allowed (p : Permissions) : String :=
  "OPTIONS, GET, HEAD" ++ (if p.put then ", PUT" else "") ++ (if p.delete then ", DELETE" else "")
    ++ (if p.mkcol then ", MKCOL" else "") ++ (if p.propfind then ", PROPFIND" else "")

end Permissions

end DavGateway
