/-!
Decimal integers in text. A number is an optional sign followed by one or more ASCII digits; it
has to fit a signed 64-bit word. Reading goes from left to right and stops at the first fault, so
a run of digits that leaves the 64-bit range is reported as such even when a stray character
follows it.
-/
namespace BlockWorld.Text

/-- Why a text is not a 64-bit integer. -/
inductive IntegerFault where
  /-- No digits, or a character that is no digit. -/
  | malformed
  /-- The digits denote a number outside the 64-bit range. -/
  | outOfRange
  deriving DecidableEq, Repr

/-- The wording of a fault. -/
def IntegerFault.message : IntegerFault → String
  | .malformed => "invalid syntax"
  | .outOfRange => "value out of range"

/-- The value of an ASCII digit. -/
def digitValue? (c : Char) : Option Nat :=
  if '0' ≤ c ∧ c ≤ '9' then some (c.toNat - '0'.toNat) else none

/-- The number of integers from zero up that fit a signed 64-bit word. -/
abbrev signedSize : Nat := 9223372036854775808

/-- Reads a run of digits on top of the value `acc` of the digits before it. The magnitude must
stay below `2 ^ 64`. -/
def magnitudeFrom (acc : Nat) : List Char → Except IntegerFault Nat
  | [] => .ok acc
  | c :: rest =>
    match digitValue? c with
    | none => .error .malformed
    | some d =>
      let next := acc * 10 + d
      if next < UInt64.size then magnitudeFrom next rest else .error .outOfRange

/-- Reads one or more digits. -/
def magnitude : List Char → Except IntegerFault Nat
  | [] => .error .malformed
  | cs => magnitudeFrom 0 cs

/-- Splits a leading sign off; the flag tells whether it was a minus. -/
def splitSign : List Char → Bool × List Char
  | '-' :: rest => (true, rest)
  | '+' :: rest => (false, rest)
  | cs => (false, cs)

/-- Gives a magnitude its sign, if the result fits a signed 64-bit word. -/
def signed (negative : Bool) (n : Nat) : Except IntegerFault Int64 :=
  if negative then
    if n ≤ signedSize then .ok (Int64.ofInt (-(n : Int))) else .error .outOfRange
  else
    if n < signedSize then .ok (Int64.ofInt n) else .error .outOfRange

/-- Reads a signed 64-bit integer. -/
def readInteger (cs : List Char) : Except IntegerFault Int64 :=
  let (negative, digits) := splitSign cs
  match magnitude digits with
  | .error e => .error e
  | .ok n => signed negative n

/-- The decimal text of a 64-bit integer. -/
def integer (n : Int64) : String :=
  toString n.toInt

end BlockWorld.Text
