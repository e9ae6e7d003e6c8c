import DavGateway.Failure
import DavGateway.Text.Quoted

/-!
# Names of pools and keys of objects

A pool name is one component of a path; a key is any text that is not empty and has no NUL.
-/

namespace DavGateway.Names

/-- Accepts a name that is not empty, not a dot or two, and has no slash. -/
def checkPool (name : String) : Except Failure Unit :=
  if name = "" ∨ name = "." ∨ name = ".." ∨ '/' ∈ name.toList then
    .error (.invalidRequest ("invalid pool name: " ++ Text.quoted name))
  else .ok ()

/-- Accepts a key that is not empty and has no NUL. -/
def checkKey (key : String) : Except Failure Unit :=
  if key = "" then .error (.invalidRequest "object key cannot be empty")
  else if '\x00' ∈ key.toList then
    .error (.invalidRequest ("object key contains NUL: " ++ Text.quoted key))
  else .ok ()

end DavGateway.Names
