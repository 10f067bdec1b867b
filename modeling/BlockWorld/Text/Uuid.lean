import BlockWorld.Data.Json
import BlockWorld.Text.Quoted
/-!
Universally unique identifiers in text: the plain form with four dashes, the same in any brackets
or after `urn:uuid:`, or thirty-two hexadecimal digits.
-/
namespace BlockWorld.Text.Uuid

/-- Why a text is no identifier. -/
inductive Problem where
  /-- No form has this number of bytes. -/
  | length (n : Nat)
  /-- The text in front of the identifier is not `urn:uuid:`. -/
  | urn (quoted : String)
  /-- A digit or a dash is missing. -/
  | format
  deriving DecidableEq, Repr

/-- The wording of a problem. -/
def Problem.message : Problem → String
  | .length n => "invalid UUID length: " ++ toString n
  | .urn quoted => "invalid urn prefix: " ++ quoted
  | .format => "invalid UUID format"

/-- Whether a byte is a hexadecimal digit. -/
def isHexByte (b : UInt8) : Bool := (Data.Json.hexValue? (Char.ofNat b.toNat)).isSome

/-- Whether bytes start with the form of five groups of digits with dashes between them. -/
def isGrouped (bytes : List UInt8) : Bool :=
  (List.range 36).all fun i =>
    match bytes[i]? with
    | none => false
    | some b => if i ∈ [8, 13, 18, 23] then b == 45 else isHexByte b

/-- Checks that a text is an identifier. -/
def check (s : String) : Except Problem Unit :=
  let bytes := s.toUTF8.toList
  let grouped (bytes : List UInt8) : Except Problem Unit :=
    if isGrouped bytes then .ok () else .error .format
  match bytes.length with
  | 36 => grouped bytes
  | 45 =>
    let head := String.ofList ((bytes.take 9).map fun b => (Char.ofNat b.toNat).toLower)
    if head = "urn:uuid:" then grouped (bytes.drop 9) else .error (.urn (quoteBytes (s.toUTF8.extract 0 9)))
  | 38 => grouped (bytes.drop 1)
  | 32 => if bytes.all isHexByte then .ok () else .error .format
  | n => .error (.length n)

/-- Whether a text is an identifier. -/
def isValid (s : String) : Bool := (check s).isOk

/-- The `n`-th identifier of a sequence of distinct ones, marked as random like any drawn one. -/
def ofNat (n : Nat) : String :=
  "7f3c9a52-" ++ hex 4 (n >>> 48) ++ "-4b1e-9d06-" ++ hex 12 n

end BlockWorld.Text.Uuid
