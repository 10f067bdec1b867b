import BlockWorld.Text.Integer
/-!
Decimal numbers as they stand in texts, and the binary floating-point numbers nearest to them.
-/
namespace BlockWorld.Number

/-- The number `± digits * 10 ^ exponent`. The sign is kept apart so that a negative zero can be
told from a positive one. -/
structure Decimal where
  negative : Bool
  digits : Nat
  exponent : Int
  deriving DecidableEq, Repr

namespace Decimal

/-- How many decimal digits a number has; zero has none. -/
def digitCount (n : Nat) : Nat :=
  if n = 0 then 0 else (Nat.toDigits 10 n).length

/-- No double and no single lies further from one, apart from zero, than this power of ten. -/
def farExponent : Int := 400

/-- The exponent of the first digit, counted as the power of ten just above the number. -/
def magnitude (d : Decimal) : Int :=
  digitCount d.digits + d.exponent

/-- The double nearest to the number, an even last place breaking ties. What lies beyond the
largest double becomes an infinity, what is too small becomes a zero. -/
def toFloat (d : Decimal) : Float :=
  let size :=
    if d.digits = 0 ∨ d.magnitude < -farExponent then 0
    else if farExponent < d.magnitude then 1 / 0
    else Float.ofScientific d.digits (d.exponent < 0) d.exponent.natAbs
  if d.negative then -size else size

/-- The single nearest to the number, rounded once. -/
def toFloat32 (d : Decimal) : Float32 :=
  let size :=
    if d.digits = 0 ∨ d.magnitude < -farExponent then 0
    else if farExponent < d.magnitude then 1 / 0
    else Float32.ofScientific d.digits (d.exponent < 0) d.exponent.natAbs
  if d.negative then -size else size

end Decimal

/-- Reads a run of digits; gives their value, their number and the rest. -/
def digitRun : (acc count : Nat) → List Char → Nat × Nat × List Char
  | acc, count, c :: rest =>
    match Text.digitValue? c with
    | some d => digitRun (acc * 10 + d) (count + 1) rest
    | none => (acc, count, c :: rest)
  | acc, count, [] => (acc, count, [])

/-- Reads an optional exponent part: `e` or `E`, an optional sign, and at least one digit. -/
def exponentPart : List Char → Option (Int × List Char)
  | c :: rest =>
    if c = 'e' ∨ c = 'E' then
      let (negative, rest) := Text.splitSign rest
      let (n, count, rest) := digitRun 0 0 rest
      if count = 0 then none else some (if negative then -(n : Int) else n, rest)
    else some (0, c :: rest)
  | [] => some (0, [])

/-- Reads digits with an optional fraction and exponent; at least one digit has to stand before
the exponent. -/
def decimalFrom (negative : Bool) (cs : List Char) : Option (Decimal × List Char) :=
  let (whole, wholeCount, rest) := digitRun 0 0 cs
  let (digits, fractionCount, rest) :=
    match rest with
    | '.' :: more => digitRun whole 0 more
    | _ => (whole, 0, rest)
  if wholeCount + fractionCount = 0 then none
  else
    match exponentPart rest with
    | none => none
    | some (e, rest) => some (⟨negative, digits, e - fractionCount⟩, rest)

/-- Reads a whole text as a decimal number: an optional sign, digits with an optional point among
or beside them, an optional exponent. -/
def readDecimal (cs : List Char) : Option Decimal :=
  let (negative, rest) := Text.splitSign cs
  match decimalFrom negative rest with
  | some (d, []) => some d
  | _ => none

end BlockWorld.Number
