import BlockWorld.Http.Request
import BlockWorld.Text.Path
/-!
Sending a client to the same address without the slash at its end. A proxy that adds a part in front
of the paths may name it in a header field.
-/
namespace BlockWorld.Http

/-- Writes slashes that stand together as one. -/
def singleSlashes : List Char → List Char
  | '/' :: '/' :: rest => singleSlashes ('/' :: rest)
  | c :: rest => c :: singleSlashes rest
  | [] => []

/-- What a proxy says it adds in front of paths, with nothing but letters, digits, hyphens and single
slashes; none if it says nothing. -/
def addedPart? (r : Request) : Option (List Char) :=
  let part := Text.cleanPath (r.header "X-Forwarded-Prefix").toList
  if part = ['.'] then none
  else some (singleSlashes (part.filter fun c => c.isAlphanum || c == '/' || c == '-'))

/-- The path that a client is sent to instead of `path` with a slash at its end. -/
def newPath (r : Request) (path : List Char) : List Char :=
  match addedPart? r with
  | some part => part ++ '/' :: path
  | none => path

/-- The shortest form of a local address. One that does not start at the root is taken to start where
`path` does. -/
def shortest (path address : List Char) : List Char :=
  let address := if address.head? == some '/' then address else Text.upToSlash path ++ address
  let (place, query) := address.span (· != '?')
  Text.cleanPath place ++ query

/-- The address that a client is sent to instead of `path` with a slash at its end. One that reads as the
address of a host, or does not read as an address, is kept as it is. -/
def redirectAddress (r : Request) (path : String) : String :=
  let path := newPath r path.toList
  let address := { r.url with path := (String.ofList path).toUTF8.toList }.text
  String.ofList (match Url.ofReference address with
    | .ok url =>
      let isLocal := url.scheme.isEmpty && (url.authority.all fun a => a.host.isEmpty)
      if isLocal then shortest path address else address
    | .error _ => address)

end BlockWorld.Http
