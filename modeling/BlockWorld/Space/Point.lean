import BlockWorld.Grid.Coord
import BlockWorld.Space.Scalar
/-!
Points and directions in space, with three coordinates of some kind of number.
-/
namespace BlockWorld.Space

open BlockWorld.Grid

/-- One of the three directions of space. -/
inductive Axis where
  | x | y | z
  deriving DecidableEq, Repr

/-- The axes, in order. -/
def Axis.all : List Axis := [.x, .y, .z]

/-- A point, or the way from one point to another. -/
structure Point (α : Type) where
  x : α
  y : α
  z : α
  deriving DecidableEq, Repr

namespace Point

variable {α : Type}

/-- The coordinate along an axis. -/
def get (p : Point α) : Axis → α
  | .x => p.x
  | .y => p.y
  | .z => p.z

/-- Applies a function to each coordinate. -/
def map {β : Type} (f : α → β) (p : Point α) : Point β := ⟨f p.x, f p.y, f p.z⟩

/-- Combines two points coordinate by coordinate. -/
def zipWith (f : α → α → α) (p q : Point α) : Point α := ⟨f p.x q.x, f p.y q.y, f p.z q.z⟩

variable [Scalar α]

/-- The point with all coordinates zero. -/
def zero : Point α := ⟨Scalar.zero, Scalar.zero, Scalar.zero⟩

/-- The point with all coordinates equal to `a`. -/
def diagonal (a : α) : Point α := ⟨a, a, a⟩

instance : Add (Point α) := ⟨zipWith (· + ·)⟩

instance : Sub (Point α) := ⟨zipWith (· - ·)⟩

/-- Each coordinate multiplied by `k`. -/
def scale (p : Point α) (k : α) : Point α := p.map (· * k)

/-- The sum of the products of coordinates. -/
def dot (p q : Point α) : α := p.x * q.x + p.y * q.y + p.z * q.z

/-- The point with coordinate `a` along one axis and zeros along the others. -/
def along (axis : Axis) (a : α) : Point α :=
  match axis with
  | .x => ⟨a, Scalar.zero, Scalar.zero⟩
  | .y => ⟨Scalar.zero, a, Scalar.zero⟩
  | .z => ⟨Scalar.zero, Scalar.zero, a⟩

/-- Whether all coordinates compare equal to zero. -/
def isZero (p : Point α) : Bool :=
  Scalar.same p.x Scalar.zero && Scalar.same p.y Scalar.zero && Scalar.same p.z Scalar.zero

/-- The corner of a cell with the least coordinates (`Vec3.Float`). -/
def ofCoord (c : Coord) : Point α := ⟨Scalar.ofInt64 c.x, Scalar.ofInt64 c.y, Scalar.ofInt64 c.z⟩

/-- The cell that holds a point (`Floor`). -/
@[specialize] def floor (p : Point α) : Coord := ⟨Scalar.floor p.x, Scalar.floor p.y, Scalar.floor p.z⟩

/-- Each coordinate rounded up (`Ceil`). -/
def ceil (p : Point α) : Coord := ⟨Scalar.ceil p.x, Scalar.ceil p.y, Scalar.ceil p.z⟩

end Point

/-- The length of a way. -/
def Point.length (p : Point Float) : Float := (p.dot p).sqrt

/-- The way of length one in the same direction, up to rounding. -/
def Point.normalized (p : Point Float) : Point Float := p.scale (1 / p.length)

end BlockWorld.Space
