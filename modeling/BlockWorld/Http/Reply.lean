import BlockWorld.Data.Json
/-!
Replies to requests.
-/
namespace BlockWorld.Http

open Data

/-- What a reply brings. -/
inductive Content where
  | json (value : Json)
  | text (s : String)
  /-- A text of lines. -/
  | lines (l : List String)
  deriving Inhabited, Repr

/-- A content as text. -/
def Content.body : Content → String
  | .json value => value.text
  | .text s => s
  | .lines l => String.join (l.map (· ++ "\n"))

/-- A reply. -/
structure Reply where
  status : Nat
  headers : List (String × String)
  content : Content
  deriving Inhabited, Repr

namespace Reply

/-- A header field. -/
def header? (r : Reply) (name : String) : Option String := r.headers.lookup name

end Reply

/-- What a route answers: a status and a content, to which the server adds header fields. -/
structure Answer where
  status : Nat
  content : Content
  deriving Inhabited, Repr

namespace Answer

/-- The common form of answers. Data that cannot be written leave the answer empty. -/
def report (status : Nat) (success : Bool) (message : String) (data : Option Json) : Answer :=
  let head := [("success", Json.bool success), ("message", .string message)]
  let value := Json.object (match data with
    | some data => head ++ [("data", data)]
    | none => head)
  ⟨status, if value.isFinite then .json value else .text ""⟩

/-- A successful request. -/
def success (message : String) (data : Json) : Answer := report 200 true message (some data)

/-- A request that did not succeed. -/
def failure (status : Nat) (message : String) : Answer := report status false message none

/-- A request that is at fault (`badRequest`). -/
def badRequest (message : String) : Answer := failure 400 message

end Answer

end BlockWorld.Http
