import BlockWorld.Http.InternetAddress
import BlockWorld.Text.Utf8
/-!
Addresses of requests, such as `/health?full` or `http://user@example.com:8088/health`: a scheme, an
authority, a path and a query, of which all but the path may be missing.
-/
namespace BlockWorld.Http

/-- Whom a request comes from, as an address tells it. -/
structure User where
  name : List UInt8
  password : Option (List UInt8)
  deriving DecidableEq, Repr

/-- The text of a user; nothing is left of one without a name and a password. -/
def User.text (u : User) : List Char :=
  match u.password with
  | none => escape .user u.name
  | some password =>
    if u.name.isEmpty && password.isEmpty then []
    else escape .user u.name ++ ':' :: escape .user password

/-- The part of an address behind two slashes. -/
structure Authority where
  user : Option User
  /-- The name of the host with its port, if it has one. -/
  host : List UInt8
  deriving DecidableEq, Repr

/-- An address. -/
structure Url where
  /-- In small letters; empty if there is none. -/
  scheme : List Char
  /-- What follows the scheme if that does not start at the root. There is no path then. -/
  rootless : List Char
  authority : Option Authority
  path : List UInt8
  query : Option (List Char)
  deriving DecidableEq, Repr, Inhabited

namespace Url

/-- Why a text is no address. -/
inductive Problem where
  | empty
  | controlCharacter
  | noScheme
  | relative
  | colonInFront
  | badPort (text : List Char)
  | missingBracket
  | badHost (text : List UInt8) (p : InternetAddress.Problem)
  | badLiteral
  | badUser
  | escape (p : EscapeProblem)
  deriving DecidableEq, Repr

/-- The wording of a problem. -/
def Problem.message : Problem → String
  | .empty => "empty url"
  | .controlCharacter => "net/url: invalid control character in URL"
  | .noScheme => "missing protocol scheme"
  | .relative => "invalid URI for request"
  | .colonInFront => "first path segment in URL cannot contain colon"
  | .badPort text => "invalid port " ++ Text.quote (String.ofList text) ++ " after host"
  | .missingBracket => "missing ']' in host"
  | .badHost text p => "invalid host: " ++ p.message text
  | .badLiteral => "invalid IP-literal"
  | .badUser => "net/url: invalid userinfo"
  | .escape p => p.message

/-! ## Parts -/

/-- Resolves the escapes of a part. -/
def resolve (part : Part) (cs : List Char) : Except Problem (List UInt8) :=
  (unescape part (String.ofList cs).toUTF8.toList).mapError .escape

/-- Splits at the last occurrence of a character. -/
def splitLast (c : Char) (cs : List Char) : Option (List Char × List Char) :=
  match cs.reverse.span (· != c) with
  | (_, []) => none
  | (after, _ :: before) => some (before.reverse, after.reverse)

/-- Whether a text is empty, or a colon and the number of a port. -/
def isPort : List Char → Bool
  | [] => true
  | c :: digits => c == ':' && digits.all Char.isDigit

/-- Splits a host in brackets where its zone starts, which is at an escaped percent sign. -/
def splitZone : List Char → List Char × List Char
  | [] => ([], [])
  | c :: rest =>
    if ['%', '2', '5'].isPrefixOf (c :: rest) then ([], c :: rest)
    else
      let (before, zone) := splitZone rest
      (c :: before, zone)

/-- Reads a host that starts with a bracket, given what follows that. It has to be an internet address
in groups. -/
def readLiteral (inside : List Char) : Except Problem (List UInt8) :=
  match splitLast ']' inside with
  | none => .error .missingBracket
  | some (name, port) => do
    if !isPort port then throw (.badPort port)
    let port ← resolve .host port
    let (before, zone) := splitZone name
    let name := (← resolve .host before) ++ (← resolve .zone zone)
    match InternetAddress.parse name with
    | .error p => throw (.badHost name p)
    | .ok .numbers => throw .badLiteral
    | .ok (.groups _) => return '['.toUInt8 :: (name ++ ']'.toUInt8 :: port)

/-- Reads a host with a port. -/
def readHost (host : List Char) : Except Problem (List UInt8) :=
  match splitLast '[' host with
  | some ([], inside) => readLiteral inside
  | some _ => .error .badLiteral
  | none => do
    match splitLast ':' host with
    | some (_, digits) => if !isPort (':' :: digits) then throw (.badPort (':' :: digits))
    | none => pure ()
    resolve .host host

/-- The characters in front of the at sign. -/
def isUserChar (c : Char) : Bool := c.isAlphanum || "-._:~!$&'()*+,;=%@".toList.contains c

/-- Reads the name of a user with a password. -/
def readUser (text : List Char) : Except Problem User :=
  if text.all isUserChar then
    match text.span (· != ':') with
    | (name, []) => do return ⟨← resolve .user name, none⟩
    | (name, _ :: password) => do return ⟨← resolve .user name, some (← resolve .user password)⟩
  else .error .badUser

/-- Reads an authority. -/
def readAuthority (text : List Char) : Except Problem Authority :=
  match splitLast '@' text with
  | none => do return ⟨none, ← readHost text⟩
  | some (user, host) => do
    let host ← readHost host
    return ⟨some (← readUser user), host⟩

/-- The scheme in front of an address, in small letters and empty if there is none, and what follows
its colon. -/
def splitScheme (text : List Char) : Except Problem (List Char × List Char) :=
  let scheme := text.takeWhile fun c => c.isAlphanum || c == '+' || c == '-' || c == '.'
  match text.drop scheme.length with
  | ':' :: rest =>
    match scheme with
    | [] => .error .noScheme
    | c :: _ => .ok (if c.isAlpha then (scheme.map Char.toLower, rest) else ([], text))
  | _ => .ok ([], text)

/-! ## Addresses -/

/-- Reads an address. A `request` has to start at the root if it has no scheme, and only behind a scheme
has it an authority; any other address may be relative, and has an authority behind two slashes but not
behind three. -/
def read (request : Bool) (text : List Char) : Except Problem Url := do
  if text.any fun c => c.toNat < 0x20 || c.toNat = 0x7F then throw .controlCharacter
  if request && text.isEmpty then throw .empty
  if text = ['*'] then return ⟨[], [], none, ['*'.toUInt8], none⟩
  let (scheme, rest) ← splitScheme text
  let (rest, query) := match rest.span (· != '?') with
    | (rest, _ :: query) => (rest, some query)
    | (rest, []) => (rest, none)
  if rest.head? ≠ some '/' then
    if !scheme.isEmpty then return ⟨scheme, rest, none, [], query⟩
    if request then throw .relative
    if (rest.takeWhile (· != '/')).contains ':' then throw .colonInFront
  let named := !scheme.isEmpty || !request && !"///".toList.isPrefixOf rest
  match named, rest with
  | true, '/' :: '/' :: rest =>
    let authority ← readAuthority (rest.takeWhile (· != '/'))
    return ⟨scheme, [], some authority, ← resolve .path (rest.dropWhile (· != '/')), query⟩
  | _, _ => return ⟨scheme, [], none, ← resolve .path rest, query⟩

/-- Reads an address that may have a fragment at its end, which does not count. -/
def ofReference (text : List Char) : Except Problem Url := do
  let (text, fragment) := text.span (· != '#')
  let url ← read false text
  let _ ← resolve .path (fragment.drop 1)
  return url

/-- The text of an authority in front of a path. -/
def authorityText (a : Authority) (path : List UInt8) : List Char :=
  (if a.host.isEmpty && a.user.isNone && path.isEmpty then [] else ['/', '/']) ++
    (match a.user with
      | some u => u.text ++ ['@']
      | none => []) ++
    escape .host a.host

/-- The text of a path. Behind a host it starts with a slash. Where there is no authority the first of
two slashes is escaped, so that no authority seems to follow. -/
def pathText (u : Url) : List Char :=
  let text := escape .path u.path
  let slashed := text.head? == some '/'
  match u.authority with
  | some a => if slashed || text.isEmpty || a.host.isEmpty then text else '/' :: text
  | none =>
    if !u.scheme.isEmpty && ['/', '/'].isPrefixOf text then "%2F".toList ++ text.drop 1 else text

/-- The text of an address. -/
def text (u : Url) : List Char :=
  (if u.scheme.isEmpty then [] else u.scheme ++ [':']) ++
    (if u.rootless.isEmpty then
      ((u.authority.map fun a => authorityText a u.path).getD []) ++ u.pathText
    else u.rootless) ++
    (match u.query with
      | some query => '?' :: query
      | none => [])

end Url

end BlockWorld.Http
