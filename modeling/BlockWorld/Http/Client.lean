import BlockWorld.Http.Request
import BlockWorld.Text.Blank
/-!
Where a request comes from. A proxy in between names the client in a header field, which counts if
it holds internet addresses only.
-/
namespace BlockWorld.Http

/-- Whether a text is an internet address without a zone. -/
def isInternetAddress (s : String) : Bool :=
  match InternetAddress.parse s.toUTF8.toList with
  | .ok (.groups zone) => zone.isEmpty
  | .ok .numbers => true
  | .error _ => false

/-- The address of the peer itself. -/
def peerAddress : String := "192.0.2.1"

/-- The client that a header field names: the first of its addresses, if all of them are addresses. -/
def forwardedFor? (field : String) : Option String :=
  let items := (field.splitOn ",").map Text.trim
  if items.all isInternetAddress then items.head? else none

/-- The address of the client. -/
def clientAddress (r : Request) : String :=
  ((["X-Forwarded-For", "X-Real-IP"].filterMap fun name => forwardedFor? (r.header name)).head?).getD
    peerAddress

end BlockWorld.Http
