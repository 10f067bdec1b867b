/-!
The numbers that points and boxes are made of. The geometry of this library is written once for
all of them; it runs on doubles, and it can be read over any other ordered numbers that provide
the same operations.
-/
namespace BlockWorld.Space

/-- What the geometry needs of a kind of number. -/
class Scalar (α : Type) extends Add α, Sub α, Mul α, Neg α where
  zero : α
  one : α
  half : α
  abs : α → α
  least : α → α → α
  greatest : α → α → α
  lt : α → α → Bool
  le : α → α → Bool
  same : α → α → Bool
  ofInt64 : Int64 → α
  /-- The greatest integer that is not above a number. -/
  floor : α → Int64
  /-- The least integer that is not below a number. -/
  ceil : α → Int64

/-- Whether the sign bit of a double is set. -/
def signBit (x : Float) : Bool := x.toBits >>> 63 == 1

/-- The smaller of two doubles. Minus infinity is below everything; otherwise what is not a number
prevails, and minus zero lies below zero. -/
def least (x y : Float) : Float :=
  let low : Float := -1 / 0
  if x == low || y == low then low
  else if x.isNaN then x
  else if y.isNaN then y
  else if x == 0 && y == 0 then if signBit x then x else y
  else if x < y then x else y

/-- The larger of two doubles. Infinity is above everything; otherwise what is not a number
prevails, and minus zero lies below zero. -/
def greatest (x y : Float) : Float :=
  let high : Float := 1 / 0
  if x == high || y == high then high
  else if x.isNaN then x
  else if y.isNaN then y
  else if x == 0 && y == 0 then if signBit x then y else x
  else if y < x then x else y

instance : Scalar Float where
  zero := 0
  one := 1
  half := 0.5
  abs := Float.abs
  least := least
  greatest := greatest
  lt x y := x < y
  le x y := x ≤ y
  same x y := x == y
  ofInt64 := Int64.toFloat
  floor x := x.floor.toInt64
  ceil x := x.ceil.toInt64

end BlockWorld.Space
