import DavGateway.Session

/-!
# Listings

A listing goes through the keys of a pool and looks every object up. An object that has gone
meanwhile is left out; any other failure ends the listing.
-/

namespace DavGateway

/-- An object of a listing. -/
structure ListedObject where
  key : String
  stat : ObjectStat
deriving DecidableEq, Repr

namespace Listing

/-- Looks up the objects under the keys that are still to come. -/
def visit : List String → SessionM ListedObject Unit
  | [] => Session.advance none
  | key :: rest => do
    Session.advance (some key)
    match ← Session.attempt (Session.stat key) with
    | .ok stat =>
      Session.emit ⟨key, stat⟩
      visit rest
    | .error failure => if failure.isNotFound then visit rest else throw failure

/-- Hands out the objects of a pool. -/
def run : SessionM ListedObject Unit := do
  visit (← Session.list)

end Listing

end DavGateway
