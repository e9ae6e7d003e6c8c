import DavGateway.Span

/-!
# Failures

Everything that can go wrong below the protocol, as causes. The wording of all of them is in
`Failure.message`.
-/

namespace DavGateway

/-- What the operating system answers when it refuses a file operation. -/
inductive SystemError where
  | notFound
  | alreadyExists
  | notDirectory
  | isDirectory
  | nameTooLong
  | invalidArgument
  | nulInPath
  | notUtf8
deriving DecidableEq, Repr

/-- The wording of a system error. -/
def SystemError.message : SystemError → String
  | .notFound => "No such file or directory (os error 2)"
  | .alreadyExists => "File exists (os error 17)"
  | .notDirectory => "Not a directory (os error 20)"
  | .isDirectory => "Is a directory (os error 21)"
  | .nameTooLong => "File name too long (os error 36)"
  | .invalidArgument => "Invalid argument (os error 22)"
  | .nulInPath => "file name contained an unexpected NUL byte"
  | .notUtf8 => "stream did not contain valid UTF-8"

/-- What an input or output failure comes from. -/
inductive InputCause where
  | system (error : SystemError)
  | other (detail : String)
deriving DecidableEq, Repr

/-- A failure of the gateway or of a store. -/
inductive Failure where
  | input (cause : InputCause)
  | configuration (detail : String)
  | objectNotFound (key : String)
  | poolNotFound (name : String)
  | poolExists (name : String)
  | store (detail : String)
  | allocation (slot : Nat) (reason : String)
  | timedOut (limit : Span)
  | channelClosed (slot : Nat)
  | shortRead (key : String) (missing : Nat)
  | body (detail : String)
  | invalidRequest (detail : String)
  | internal (detail : String)
deriving DecidableEq, Repr

namespace Failure

/-- A failure that the operating system reports. -/
def ofSystem (error : SystemError) : Failure := .input (.system error)

/-- The wording of a failure. -/
def message : Failure → String
  | .input (.system error) => "IO error: " ++ error.message
  | .input (.other detail) => "IO error: " ++ detail
  | .configuration detail => "Configuration error: " ++ detail
  | .objectNotFound key => "Object not found: " ++ key
  | .poolNotFound name => "Pool not found: " ++ name
  | .poolExists name => "Pool already exists: " ++ name
  | .store detail => "Store error: " ++ detail
  | .allocation slot reason =>
    "Completion allocation failed on slot " ++ toString slot ++ ": " ++ reason
  | .timedOut limit => "Store operation timed out after " ++ limit.text
  | .channelClosed slot => "Wake channel closed on slot " ++ toString slot
  | .shortRead key missing =>
    "Short read on " ++ key ++ ": expected " ++ toString missing ++ " more bytes"
  | .body detail => "Request body error: " ++ detail
  | .invalidRequest detail => "Invalid request: " ++ detail
  | .internal detail => "Internal error: " ++ detail

/-- Does the failure say that there is no such object? -/
def isNotFound : Failure → Bool
  | .objectNotFound _ => true
  | _ => false

end Failure

end DavGateway
