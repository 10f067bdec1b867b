import BlockWorld.Text.Integer
/-!
Positions on the three grids of the world. Blocks, chunks and megachunks are all named by triples
of 64-bit integers, whose arithmetic wraps around. Sixteen cells of one grid make up an edge of a
cell of the next.
-/
namespace BlockWorld.Grid

/-- The length of an edge of a chunk in blocks, and of a megachunk in chunks. -/
def edge : Int64 := 16

/-- The quotient rounded down, for a positive divisor: the quotient toward zero, less one when the remainder
is negative (`FloorDiv`). -/
def floorDiv (a b : Int64) : Int64 :=
  if a % b < 0 then a / b - 1 else a / b

/-- The remainder brought into the range from zero to a positive divisor (`Mod`). -/
def floorMod (a b : Int64) : Int64 :=
  if a % b < 0 then a % b + b else a % b

/-- What can go wrong in whole-number arithmetic. -/
inductive ArithmeticFault where
  | divisionByZero
  deriving DecidableEq, Repr

/-- The wording of an arithmetic fault. -/
def ArithmeticFault.message : ArithmeticFault → String
  | .divisionByZero => "runtime error: integer divide by zero"

/-- A position of a block, a chunk or a megachunk. -/
structure Coord where
  x : Int64
  y : Int64
  z : Int64
  deriving DecidableEq, Hashable, Repr, Inhabited

namespace Coord

/-- The position `(0, 0, 0)`. -/
def origin : Coord := ⟨0, 0, 0⟩

/-- Applies a function to each component. -/
@[inline] def map (f : Int64 → Int64) (p : Coord) : Coord := ⟨f p.x, f p.y, f p.z⟩

instance : Add Coord := ⟨fun p q => ⟨p.x + q.x, p.y + q.y, p.z + q.z⟩⟩

instance : Sub Coord := ⟨fun p q => ⟨p.x - q.x, p.y - q.y, p.z - q.z⟩⟩

/-- The position with each component multiplied by `k` (`Vec3.Scale`). -/
def scale (p : Coord) (k : Int64) : Coord := p.map (· * k)

/-- Each component divided by `b`, rounded down. -/
def floorDiv (p : Coord) (b : Int64) : Coord := p.map (Grid.floorDiv · b)

/-- The remainder of each component. -/
def floorMod (p : Coord) (b : Int64) : Coord := p.map (Grid.floorMod · b)

/-- The chunk that holds a block position, or the megachunk that holds a chunk position
(`Vec3.ToChunkCoords`). -/
def parent (p : Coord) : Coord := p.floorDiv edge

/-- The position inside the parent, each component from 0 to 15 (`Vec3.LocalInChunk`). -/
def within (p : Coord) : Coord := p.floorMod edge

/-- Whether all components lie between 0 and 15 (`Vec3.InLocalRange`). -/
def isLocal (p : Coord) : Bool :=
  0 ≤ p.x && p.x < edge && 0 ≤ p.y && p.y < edge && 0 ≤ p.z && p.z < edge

/-- The square of the distance between two positions. The sum wraps around like all arithmetic on
positions and is rounded to a double last. -/
def squaredDistance (p q : Coord) : Float :=
  let d := p - q
  (d.x * d.x + d.y * d.y + d.z * d.z).toFloat

/-- The text of a position, as in `(1,-2,3)` (`Vec3.String`). -/
def text (p : Coord) : String :=
  "(" ++ Text.integer p.x ++ "," ++ Text.integer p.y ++ "," ++ Text.integer p.z ++ ")"

/-- The order by `x`, then `y`, then `z`. -/
def le (p q : Coord) : Bool :=
  if p.x ≠ q.x then p.x < q.x else if p.y ≠ q.y then p.y < q.y else p.z ≤ q.z

end Coord

/-- The whole numbers from `lo` to `hi`. -/
def span (lo hi : Int64) : List Int64 :=
  (List.range (hi.toInt - lo.toInt + 1).toNat).map fun i => lo + Int64.ofNat i

/-- The rounded-down quotient, or the fault of dividing by zero. -/
def floorDiv? (a b : Int64) : Except ArithmeticFault Int64 :=
  if b = 0 then .error .divisionByZero else .ok (floorDiv a b)

/-- The remainder, or the fault of dividing by zero. -/
def floorMod? (a b : Int64) : Except ArithmeticFault Int64 :=
  if b = 0 then .error .divisionByZero else .ok (floorMod a b)

/-- The componentwise rounded-down quotient, or the fault of dividing by zero. -/
def Coord.floorDiv? (p : Coord) (b : Int64) : Except ArithmeticFault Coord :=
  if b = 0 then .error .divisionByZero else .ok (p.floorDiv b)

/-- The componentwise remainder, or the fault of dividing by zero. -/
def Coord.floorMod? (p : Coord) (b : Int64) : Except ArithmeticFault Coord :=
  if b = 0 then .error .divisionByZero else .ok (p.floorMod b)

end BlockWorld.Grid
