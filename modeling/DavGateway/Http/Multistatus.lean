import DavGateway.HttpDate
import DavGateway.Markup
import DavGateway.MediaType
import DavGateway.Percent
import DavGateway.Session

/-!
# Multi-status documents

A listing is sent as an XML document that is written as it becomes known: an opening, one chunk
for each entry, and a closing. A listing that fails has no closing, so that no part of a document
can be taken for a whole one.
-/

namespace DavGateway.Http

/-- An entry of a document: the root of a mount, or an object below it. -/
inductive Entry where
  | collection (base : String)
  | object (base key : String) (stat : ObjectStat)
deriving DecidableEq, Repr

namespace Entry

/-- The path of an entry, as it is sent. -/
def href : Entry → String
  | .collection base => Percent.encode base ++ "/"
  | .object base key _ => Percent.encode base ++ "/" ++ Percent.encode key

/-- What is told about an entry. -/
def properties : Entry → String
  | .collection _ => "<D:resourcetype><D:collection/></D:resourcetype>"
  | .object _ key stat =>
    "<D:resourcetype/>" ++ Markup.element "D:getcontentlength" (toString stat.size)
      ++ Markup.element "D:getlastmodified" (HttpDate.format stat.mtime)
      ++ match MediaType.guess? key with
        | some type => Markup.element "D:getcontenttype" type
        | none => ""

/-- An entry as a part of the document. -/
def text (e : Entry) : String :=
  "<D:response>" ++ Markup.element "D:href" e.href ++ "<D:propstat><D:prop>" ++ e.properties
    ++ "</D:prop><D:status>HTTP/1.1 200 OK</D:status></D:propstat></D:response>\n"

end Entry

namespace Multistatus

/-- The beginning of a document. -/
def opening : String :=
  "<?xml version=\"1.0\" encoding=\"utf-8\"?>\n<D:multistatus xmlns:D=\"DAV:\">\n"

/-- The end of a document. -/
def closing : String := "</D:multistatus>\n"

/-- The chunks of a document with the given entries. -/
def document (entries : SessionFlow Entry (Except Failure Unit)) :
    SessionFlow Bytes (Except Failure Unit) :=
  .emit (Bytes.ofText opening) <|
    (entries.mapItems fun e => Bytes.ofText e.text).bind fun
      | .ok () => .emit (Bytes.ofText closing) (.done (.ok ()))
      | .error failure => .done (.error failure)

/-- A document with one entry. -/
def single (entry : Entry) : SessionFlow Bytes (Except Failure Unit) :=
  document (.emit entry (.done (.ok ())))

end Multistatus

end DavGateway.Http
