/-!
# Media types

The media type of an object is guessed from the extension of its key.
-/

namespace DavGateway.MediaType

/-- The known extensions, in lower case, with their media types. -/
def known : List (List String × String) :=
  [(["txt", "text", "log"], "text/plain"), (["html", "htm"], "text/html"), (["css"], "text/css"),
    (["csv"], "text/csv"), (["md"], "text/markdown"), (["xml"], "application/xml"),
    (["js", "mjs"], "application/javascript"), (["json"], "application/json"),
    (["yaml", "yml"], "application/yaml"), (["pdf"], "application/pdf"),
    (["zip"], "application/zip"), (["gz", "tgz"], "application/gzip"),
    (["tar"], "application/x-tar"), (["wasm"], "application/wasm"), (["png"], "image/png"),
    (["jpg", "jpeg"], "image/jpeg"), (["gif"], "image/gif"), (["webp"], "image/webp"),
    (["svg"], "image/svg+xml"), (["ico"], "image/x-icon"), (["mp3"], "audio/mpeg"),
    (["ogg"], "audio/ogg"), (["wav"], "audio/wav"), (["mp4"], "video/mp4"),
    (["webm"], "video/webm"), (["woff"], "font/woff"), (["woff2"], "font/woff2")]

/-- What objects are served as when nothing is known about them. -/
def fallback : String := "application/octet-stream"

/-- The part after the last dot of the last segment of a key, if that segment has a dot. -/
def extension? (key : String) : Option String :=
  let name := key.toList.reverse.takeWhile (· != '/')
  if name.contains '.' then some (String.ofList (name.takeWhile (· != '.')).reverse) else none

/-- The media type that the extension of the key stands for, in any case of its ASCII letters. -/
def guess? (key : String) : Option String := do
  let extension ← extension? key
  let lower := String.ofList (extension.toList.map Char.toLower)
  let row ← known.find? fun row => row.1.contains lower
  some row.2

end DavGateway.MediaType
