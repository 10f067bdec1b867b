import BlockWorld.Http.Url
/-!
Requests: a method, an address, header fields and a body.
-/
namespace BlockWorld.Http

/-- A request. -/
structure Request where
  method : String
  url : Url
  headers : List (String × String)
  body : String
  deriving Repr, Inhabited

namespace Request

/-- The path with its escapes resolved. -/
def path (r : Request) : String := Text.ofBytes ⟨r.url.path.toArray⟩

/-- One pair of a query. A pair with a semicolon or a bad escape does not count. -/
def queryPair? (pair : List Char) : Option (List UInt8 × List UInt8) :=
  if pair.isEmpty || pair.contains ';' then none
  else
    let (name, value) := pair.span (· != '=')
    match Url.resolve .query name, Url.resolve .query (value.drop 1) with
    | .ok name, .ok value => some (name, value)
    | _, _ => none

/-- The pairs of the query. -/
def query (r : Request) : List (List UInt8 × List UInt8) :=
  ((r.url.query.getD []).splitOn '&').filterMap queryPair?

/-- The first value with a given name in the query. -/
def queryValue? (r : Request) (name : String) : Option ByteArray :=
  (r.query.lookup name.toUTF8.toList).map fun bytes => ⟨bytes.toArray⟩

/-- A header field, whatever the case of its name; an empty one if there is none. -/
def header (r : Request) (name : String) : String :=
  ((r.headers.find? fun (other, _) => other.toLower == name.toLower).map (·.2)).getD ""

end Request

end BlockWorld.Http
