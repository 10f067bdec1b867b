import BlockWorld.Fault
import BlockWorld.Text.Integer
/-!
Addresses to listen on, such as `127.0.0.1:8088` or `:8088`.
-/
namespace BlockWorld.Http

/-- Why an address cannot be listened on. -/
inductive AddressError where
  | missingPort (address : String)
  | tooManyColons (address : String)
  | missingBracket (address : String)
  | unexpectedBracket (bracket : Char) (address : String)
  | unknownPort (port : String)
  | invalidPort (port : String)
  deriving DecidableEq, Repr

/-- The wording of a refused address. -/
def AddressError.message (e : AddressError) : String :=
  let about (address problem : String) : String := "address " ++ address ++ ": " ++ problem
  "listen tcp: " ++
    match e with
    | .missingPort address => about address "missing port in address"
    | .tooManyColons address => about address "too many colons in address"
    | .missingBracket address => about address "missing ']' in address"
    | .unexpectedBracket c address =>
      about address ("unexpected '" ++ String.singleton c ++ "' in address")
    | .unknownPort port => "lookup tcp/" ++ port ++ ": unknown port"
    | .invalidPort port => about port "invalid port"

instance : Fault AddressError := ⟨AddressError.message, fun _ => []⟩

/-- The greatest number of a port. -/
def maxPort : Nat := 65535

/-- From here on a number is out of range, and what follows it is not looked at. -/
def portCutoff : Nat := 1073741824

/-- Reads the digits of a port after those read so far. -/
def portDigits (n : Nat) : List Char → Option Nat
  | [] => some n
  | c :: rest =>
    match Text.digitValue? c with
    | none => none
    | some d => if n ≥ portCutoff then some n else portDigits (n * 10 + d) rest

/-- Reads the number of a port. No digits mean port zero, which lets the system choose. -/
def readPort (text : String) : Except AddressError Nat :=
  let (negative, digits) := Text.splitSign text.toList
  match portDigits 0 digits with
  | none => .error (.unknownPort text)
  | some n => if maxPort < n ∨ (negative ∧ n ≠ 0) then .error (.invalidPort text) else .ok n

/-- Splits an address that starts with a bracket into the host inside the brackets and the port,
which follows them and a colon. -/
def splitBracketed (address : String) (inside : List Char) :
    Except AddressError (List Char × List Char) :=
  match inside.span (· != ']') with
  | (_, []) => .error (.missingBracket address)
  | (host, _ :: after) =>
    match after with
    | ':' :: port =>
      if port.contains ':' then .error (.tooManyColons address) else .ok (host, port)
    | _ => .error (.missingPort address)

/-- Splits an address into its host and its port at the last colon. -/
def splitAddress (address : String) : Except AddressError (List Char × List Char) := do
  let (host, port) ←
    match address.toList.reverse.span (· != ':'), address.toList with
    | (_, []), _ => .error (.missingPort address)
    | _, '[' :: inside => splitBracketed address inside
    | (port, _ :: host), _ =>
      if host.contains ':' then .error (.tooManyColons address) else .ok (host.reverse, port.reverse)
  if (host ++ port).contains '[' then throw (.unexpectedBracket '[' address)
  else if (host ++ port).contains ']' then throw (.unexpectedBracket ']' address)
  else return (host, port)

/-- Checks an address and gives its port. Only a host in brackets may hold colons. -/
def checkAddress (address : String) : Except AddressError Nat := do
  let (_, port) ← splitAddress address
  readPort (String.ofList port)

end BlockWorld.Http
