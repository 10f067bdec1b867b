import BlockWorld.Http.Request
import BlockWorld.Text.Quoted
/-!
The head of a request: a first line with the method, the address and the version of the protocol, divided
by spaces, and header fields, one in a line, up to a line that is empty. A line that starts with a blank
goes on with the field in front of it.
-/
namespace BlockWorld.Http

/-- Why the head of a request cannot be read. -/
inductive HeadError where
  | line (text : List Char)
  | method (name : List Char)
  | version (text : List Char)
  | url (text : List Char) (problem : Url.Problem)
  /-- The first field starts with a blank. -/
  | firstField (text : List Char)
  | noColon (text : List Char)
  | field (text : List Char)
  | manyHosts
  deriving DecidableEq, Repr

/-- The wording of a head that cannot be read. -/
def HeadError.message : HeadError → String
  | .line text => "malformed HTTP request " ++ Text.quote (String.ofList text)
  | .method name => "invalid method " ++ Text.quote (String.ofList name)
  | .version text => "malformed HTTP version " ++ Text.quote (String.ofList text)
  | .url text problem => "parse " ++ Text.quote (String.ofList text) ++ ": " ++ problem.message
  | .firstField text => "malformed MIME header initial line: " ++ String.ofList text
  | .noColon text => "malformed MIME header: missing colon: " ++ Text.quote (String.ofList text)
  | .field text => "malformed MIME header line: " ++ String.ofList text
  | .manyHosts => "too many Host headers"

/-! ## The first line -/

/-- The characters of methods and of the names of fields. -/
def isTokenChar (c : Char) : Bool :=
  c.isAlphanum || ['!', '#', '$', '%', '&', '\'', '*', '+', '-', '.', '^', '_', '|', '~',
    Char.ofNat 0x60].contains c

/-- Whether a text is a version of the protocol. -/
def isVersion : List Char → Bool
  | ['H', 'T', 'T', 'P', '/', major, '.', minor] => major.isDigit && minor.isDigit
  | _ => false

/-- Reads the address of a request. A connection is asked for with an authority alone. -/
def readTarget (method target : List Char) : Except HeadError Url :=
  let bare := String.ofList method = "CONNECT" ∧ target.head? ≠ some '/'
  let text := if bare then "http://".toList ++ target else target
  match Url.read true text with
  | .error problem => .error (.url text problem)
  | .ok url => .ok (if bare then { url with scheme := [] } else url)

/-- Reads the method and the address from the first line of a request. -/
def readFirstLine (line : List Char) : Except HeadError (List Char × Url) :=
  let (method, rest) := line.span (· != ' ')
  match (rest.drop 1).span (· != ' ') with
  | (_, []) => .error (.line line)
  | (target, _ :: version) =>
    if method.isEmpty || !method.all isTokenChar then .error (.method method)
    else if !isVersion version then .error (.version version)
    else (readTarget method target).map fun url => (method, url)

/-! ## Fields -/

/-- The first line of a text and what follows it. -/
def splitLine (text : List Char) : List Char × List Char :=
  let (line, rest) := text.span (· != '\n')
  (if line.getLast? = some '\r' then line.dropLast else line, rest.drop 1)

/-- Whether a character is a blank inside a line. -/
def isBlank (c : Char) : Bool := c == ' ' || c == '\t'

/-- A line without the blanks at its ends. -/
def trimBlanks (line : List Char) : List Char :=
  ((line.dropWhile isBlank).reverse.dropWhile isBlank).reverse

/-- Adds the lines that go on with a field. -/
def unfoldLine : (fuel : Nat) → (line rest : List Char) → List Char × List Char
  | 0, line, rest => (line, rest)
  | fuel + 1, line, rest =>
    if rest.head?.any isBlank then
      let (next, rest) := splitLine (rest.dropWhile isBlank)
      unfoldLine fuel (line ++ ' ' :: trimBlanks next) rest
    else (line, rest)

/-- Reads a field. -/
def readField (line : List Char) : Except HeadError (String × String) :=
  let (name, value) := line.span (· != ':')
  let isNameChar (c : Char) : Bool := isTokenChar c || c == ' '
  let isValueChar (c : Char) : Bool := c == '\t' || 0x20 ≤ c.toNat && c.toNat != 0x7F
  if name.isEmpty || !name.all isNameChar || !value.all isValueChar then .error (.field line)
  else .ok (String.ofList name, String.ofList ((value.drop 1).dropWhile isBlank))

/-- Reads fields up to an empty line. -/
def readFieldLines : (fuel : Nat) → List Char → Except HeadError (List (String × String))
  | 0, _ => .ok []
  | fuel + 1, text =>
    let (line, rest) := splitLine text
    if line.isEmpty then .ok []
    else if !line.contains ':' then .error (.noColon line)
    else do
      let (line, rest) := unfoldLine rest.length (trimBlanks line) rest
      let field ← readField line
      return field :: (← readFieldLines fuel rest)

/-- Reads the fields of a head. -/
def readFields (text : List Char) : Except HeadError (List (String × String)) := do
  if text.head?.any isBlank then throw (.firstField (splitLine text).1)
  let fields ← readFieldLines text.length text
  if 1 < (fields.filter fun (name, _) => name.toLower == "host").length then throw .manyHosts
  return fields

/-! ## Requests -/

/-- What ends the first line of the requests that are made, and their heads. -/
def headEnd : String := " HTTP/1.0\r\n\r\n"

/-- Makes a request; one without a method asks to get something. The header fields given win over those
that the target brings along behind its end. -/
def Request.make (method target : String) (headers : List (String × String)) (body : String) :
    Except HeadError Request := do
  let method := if method = "" then "GET" else method
  let (line, rest) := splitLine (method ++ " " ++ target ++ headEnd).toList
  let (method, url) ← readFirstLine line
  return ⟨String.ofList method, url, headers ++ (← readFields rest), body⟩

/-- Reads a request from a line: the method, the target and the body, divided by blanks. -/
def Request.ofLine (line : String) : Except HeadError Request :=
  let (method, rest) := line.toList.span (· != ' ')
  let (target, rest) := (rest.drop 1).span (· != ' ')
  Request.make (String.ofList method) (String.ofList target) [] (String.ofList (rest.drop 1))

end BlockWorld.Http
