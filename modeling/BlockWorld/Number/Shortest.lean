import BlockWorld.Number.Decimal
import BlockWorld.Text.Quoted
/-!
The shortest decimal text of a floating-point number: the fewest digits that read back as the
same number, and of those the ones nearest to it.

A finite number other than zero is `m * 2 ^ q`. The reals that round to it fill the interval
between the midpoints to its two neighbours, with both ends included exactly when `m` is even.
For one digit, two digits and so on, the two points of that decimal grid beside the number are
tested; the first grid with a point inside the interval wins, and of two such points the nearer.
If the number lies halfway between them it is the one whose last digit is even.
-/
namespace BlockWorld.Number

/-- A finite positive binary number `mantissa * 2 ^ exponent`. The flag tells that the next
smaller number is only half as far away as the next larger one. -/
structure Binary where
  mantissa : Nat
  exponent : Int
  narrowBelow : Bool
  deriving DecidableEq, Repr

/-- The sizes of the two fields of a binary format. -/
structure BinaryFormat where
  fractionBits : Nat
  exponentBits : Nat

/-- The format of a double. -/
def BinaryFormat.double : BinaryFormat := ⟨52, 11⟩

/-- The format of a single. -/
def BinaryFormat.single : BinaryFormat := ⟨23, 8⟩

/-- What a bit pattern stands for, apart from its sign. -/
inductive Magnitude where
  | zero
  | finite (b : Binary)
  | infinite
  | notANumber
  deriving DecidableEq, Repr

/-- Takes a bit pattern apart into sign and magnitude. -/
def BinaryFormat.decode (f : BinaryFormat) (bits : Nat) : Bool × Magnitude :=
  let fraction := bits % Nat.pow 2 f.fractionBits
  let field := bits / Nat.pow 2 f.fractionBits % Nat.pow 2 f.exponentBits
  let negative := bits / Nat.pow 2 (f.fractionBits + f.exponentBits) % 2 = 1
  let bias := Nat.pow 2 (f.exponentBits - 1) - 1 + f.fractionBits
  if field = Nat.pow 2 f.exponentBits - 1 then
    (negative, if fraction = 0 then .infinite else .notANumber)
  else if field = 0 then
    (negative, if fraction = 0 then .zero else .finite ⟨fraction, 1 - (bias : Int), false⟩)
  else
    (negative, .finite
      ⟨Nat.pow 2 f.fractionBits + fraction, (field : Int) - bias, fraction = 0 ∧ 1 < field⟩)

/-- A number of digits and the power of ten of the last of them: `digits * 10 ^ scale`. -/
structure Digits where
  digits : Nat
  scale : Int
  deriving DecidableEq, Repr

/-- Drops zeros at the end, at most `fuel` of them. -/
def Digits.strip : Nat → Digits → Digits
  | 0, d => d
  | fuel + 1, d =>
    if d.digits ≠ 0 ∧ d.digits % 10 = 0 then strip fuel ⟨d.digits / 10, d.scale + 1⟩ else d

/-- The interval of reals that round to a number, in units of which the number itself is
`value / den`. -/
structure Interval where
  low : Nat
  value : Nat
  high : Nat
  den : Nat
  closed : Bool

/-- The interval of a binary number. A quarter of the last place is the unit, so that all bounds
are whole. -/
def Binary.interval (b : Binary) : Interval :=
  let low := if b.narrowBelow then 4 * b.mantissa - 1 else 4 * b.mantissa - 2
  let up := Nat.pow 2 (b.exponent - 2).toNat
  let down := Nat.pow 2 (2 - b.exponent).toNat
  ⟨low * up, 4 * b.mantissa * up, (4 * b.mantissa + 2) * up, down, b.mantissa % 2 = 0⟩

/-- Whether `n * 10 ^ scale` lies in an interval. -/
def Interval.holds (i : Interval) (n : Nat) (scale : Int) : Bool :=
  let x := n * Nat.pow 10 scale.toNat * i.den
  let unit := Nat.pow 10 (-scale).toNat
  if i.closed then i.low * unit ≤ x ∧ x ≤ i.high * unit else i.low * unit < x ∧ x < i.high * unit

/-- The largest `n` with `n * 10 ^ scale` at most the number. -/
def Interval.below (i : Interval) (scale : Int) : Nat :=
  i.value * Nat.pow 10 (-scale).toNat / (i.den * Nat.pow 10 scale.toNat)

/-- Whether the number is to be rounded down to `n * 10 ^ scale` rather than up to the next grid point:
below the middle of the grid step, and in the middle if `n` is even. -/
def Interval.roundsDown (i : Interval) (n : Nat) (scale : Int) : Bool :=
  let twice := 2 * (i.value * Nat.pow 10 (-scale).toNat)
  let middle := (2 * n + 1) * (Nat.pow 10 scale.toNat * i.den)
  twice < middle ∨ twice = middle ∧ n % 2 = 0

/-- The grid point of the given scale to use, if one of the two beside the number is inside. -/
def Interval.gridPoint? (i : Interval) (scale : Int) : Option Digits :=
  let n := i.below scale
  match i.holds n scale, i.holds (n + 1) scale with
  | true, true => some (if i.roundsDown n scale then ⟨n, scale⟩ else ⟨n + 1, scale⟩)
  | true, false => some ⟨n, scale⟩
  | false, true => some ⟨n + 1, scale⟩
  | false, false => none

/-- Tries finer and finer grids, starting with the given scale. -/
def Interval.search (i : Interval) : (fuel : Nat) → Int → Option Digits
  | 0, _ => none
  | fuel + 1, scale => (i.gridPoint? scale).orElse fun _ => search i fuel (scale - 1)

/-- The power of ten of the first digit of the number. -/
def Interval.leading (i : Interval) : Int :=
  let guess : Int := (Decimal.digitCount i.value : Int) - Decimal.digitCount i.den
  if i.den * Nat.pow 10 guess.toNat ≤ i.value * Nat.pow 10 (-guess).toNat then guess else guess - 1

/-- The shortest digits of a binary number. Eighteen grids are more than a double ever needs. -/
def Binary.shortest (b : Binary) : Digits :=
  let i := b.interval
  match i.search 18 i.leading with
  | some d => d.strip 400
  | none => ⟨0, 0⟩

/-- How the digits of a number are laid out. -/
structure FloatStyle where
  /-- The least exponent of the first digit that is written positionally. -/
  leastPositional : Int
  /-- The least exponent from which on numbers have an exponent part again. -/
  firstLarge : Int
  /-- The exponent has at least this many digits. -/
  exponentWidth : Nat

/-- Numbers in messages: an exponent part below `1e-04` and from `1e+06` on. -/
def FloatStyle.message : FloatStyle := ⟨-4, 6, 2⟩

/-- Numbers in JSON texts: an exponent part below `1e-6` and from `1e+21` on. -/
def FloatStyle.json : FloatStyle := ⟨-6, 21, 1⟩

/-- The digits with an exponent part: a point after the first digit if there are more. -/
def FloatStyle.scientific (style : FloatStyle) (digits : List Char) (lead : Int) : List Char :=
  let mantissa :=
    match digits with
    | d :: e :: rest => d :: '.' :: e :: rest
    | short => short
  let exponent := Nat.toDigits 10 lead.natAbs
  mantissa ++ ['e', if lead < 0 then '-' else '+'] ++
    List.replicate (style.exponentWidth - exponent.length) '0' ++ exponent

/-- The digits without an exponent part. -/
def positional (digits : List Char) (scale lead : Int) : List Char :=
  if 0 ≤ scale then digits ++ List.replicate scale.toNat '0'
  else if 0 ≤ lead then
    digits.take (lead.toNat + 1) ++ '.' :: digits.drop (lead.toNat + 1)
  else '0' :: '.' :: (List.replicate (-lead - 1).toNat '0' ++ digits)

/-- Lays out the digits of a number. -/
def FloatStyle.write (style : FloatStyle) (d : Digits) : List Char :=
  let digits := Nat.toDigits 10 d.digits
  let lead : Int := d.scale + digits.length - 1
  if lead < style.leastPositional ∨ style.firstLarge ≤ lead then style.scientific digits lead
  else positional digits d.scale lead

/-- The text of the number behind a bit pattern. -/
def FloatStyle.text (style : FloatStyle) (f : BinaryFormat) (bits : Nat) : String :=
  match f.decode bits with
  | (_, .notANumber) => "NaN"
  | (negative, .infinite) => if negative then "-Inf" else "+Inf"
  | (negative, .zero) => if negative then "-0" else "0"
  | (negative, .finite b) =>
    String.ofList ((if negative then ['-'] else []) ++ style.write b.shortest)

/-- The text of a double. -/
def FloatStyle.double (style : FloatStyle) (x : Float) : String :=
  style.text .double x.toBits.toNat

/-- The text of a single. -/
def FloatStyle.single (style : FloatStyle) (x : Float32) : String :=
  style.text .single x.toBits.toNat

end BlockWorld.Number
