import BlockWorld.Space.Point
/-!
Boxes with edges along the axes: overlap, the least push that separates two boxes, and tests
against points, planes and view frusta.
-/
namespace BlockWorld.Space

open BlockWorld.Grid

/-- A box, given by its corners with the least and the greatest coordinates. -/
structure Box (α : Type) where
  min : Point α
  max : Point α
  deriving DecidableEq, Repr

/-- A four by four matrix in column-major order. -/
abbrev Matrix (α : Type) := Vector α 16

/-- Homogeneous coordinates. -/
structure Clip (α : Type) where
  x : α
  y : α
  z : α
  w : α

/-- The coordinate along an axis, before the division by `w`. -/
def Clip.get {α : Type} (c : Clip α) : Axis → α
  | .x => c.x
  | .y => c.y
  | .z => c.z

namespace Box

variable {α : Type} [Scalar α]

/-- The box between two opposite corners, in any order (`NewAABB`). -/
def ofCorners (a b : Point α) : Box α :=
  ⟨a.zipWith Scalar.least b, a.zipWith Scalar.greatest b⟩

/-- The box of a cell (`UnitCube`). -/
def unitCube (c : Coord) : Box α :=
  ⟨Point.ofCoord c, Point.ofCoord c + Point.diagonal Scalar.one⟩

/-- The box moved by `d` (`AABB.Translate`). -/
def translate (b : Box α) (d : Point α) : Box α := ⟨b.min + d, b.max + d⟩

/-- The box with every face moved outward by `r`, or inward by a negative `r` (`AABB.Grow`). -/
def grow (b : Box α) (r : α) : Box α :=
  ofCorners (b.min - Point.diagonal r) (b.max + Point.diagonal r)

/-- The lengths of the edges (`AABB.Extent`). -/
def extent (b : Box α) : Point α := b.max - b.min

/-- The point in the middle (`AABB.Center`). -/
def center (b : Box α) : Point α := (b.min + b.max).scale Scalar.half

/-- The eight corners, `x` varying fastest (`AABB.Corners`). -/
def corners (b : Box α) : List (Point α) :=
  [⟨b.min.x, b.min.y, b.min.z⟩, ⟨b.max.x, b.min.y, b.min.z⟩,
   ⟨b.min.x, b.max.y, b.min.z⟩, ⟨b.max.x, b.max.y, b.min.z⟩,
   ⟨b.min.x, b.min.y, b.max.z⟩, ⟨b.max.x, b.min.y, b.max.z⟩,
   ⟨b.min.x, b.max.y, b.max.z⟩, ⟨b.max.x, b.max.y, b.max.z⟩]

/-- Whether a point lies in the box or on its surface (`AABB.TestPoint`). -/
def holds (b : Box α) (p : Point α) : Bool :=
  Axis.all.all fun i => Scalar.le (b.min.get i) (p.get i) && Scalar.le (p.get i) (b.max.get i)

/-- Whether two boxes overlap; touching faces do not count (`AABB.IsColliding`). -/
def overlaps (a b : Box α) : Bool :=
  Axis.all.all fun i =>
    Scalar.lt (a.min.get i) (b.max.get i) && Scalar.lt (b.min.get i) (a.max.get i)

/-- A way to push a box out of another one: along an axis, by a distance, downward or upward. -/
structure Push (α : Type) where
  axis : Axis
  distance : α
  upward : Bool

/-- The push as a way through space. -/
def Push.way (p : Push α) : Point α :=
  Point.along p.axis (if p.upward then p.distance else -p.distance)

/-- The six ways to push `b` out of `a`, in the order of the faces. -/
def pushes (a b : Box α) : List (Push α) :=
  Axis.all.flatMap fun i =>
    [⟨i, b.max.get i - a.min.get i, false⟩, ⟨i, a.max.get i - b.min.get i, true⟩]

/-- A push counts when its distance is positive and less than the extent of the box that pushes. -/
def admits (a : Box α) (p : Push α) : Bool :=
  Scalar.lt Scalar.zero p.distance && Scalar.lt p.distance (a.extent.get p.axis)

/-- Keeps the shorter push; of two equally short ones the earlier. -/
def shorter (best : Option (Push α)) (p : Push α) : Option (Push α) :=
  match best with
  | none => some p
  | some q => if Scalar.lt p.distance q.distance then some p else some q

/-- The least push that moves `b` out of `a`, if the two overlap and some push counts. -/
def push? (a b : Box α) : Option (Push α) :=
  if a.overlaps b then ((a.pushes b).filter a.admits).foldl shorter none else none

/-- The way on which to move `b` so that it no longer overlaps `a` (`AABB.Collide`). -/
def separate (a b : Box α) : Option (Point α) := (a.push? b).map Push.way

/-- Whether the box meets the plane through a point with a given normal: the distance of the center is
compared with the extents projected on the normal (`AABB.TestPlane`). -/
def meetsPlane (b : Box α) (point normal : Point α) : Bool :=
  let half := b.extent.scale Scalar.half
  let radius := half.dot (normal.map Scalar.abs)
  let distance := normal.dot (b.center - point)
  Scalar.le (Scalar.abs distance) radius

/-- A point in the homogeneous coordinates that a matrix maps it to. -/
def clip (m : Matrix α) (p : Point α) : Clip α :=
  let row (r : Fin 4) : α := m[r.val] * p.x + m[4 + r.val] * p.y + m[8 + r.val] * p.z +
    m[12 + r.val] * Scalar.one
  ⟨row 0, row 1, row 2, row 3⟩

/-- Whether a point lies strictly outside one of the six planes of the clip volume. -/
def isOutside (axis : Axis) (upward : Bool) (c : Clip α) : Bool :=
  Scalar.lt c.w (if upward then c.get axis else -(c.get axis))

/-- Whether the box may be visible in the frustum of a matrix: it is ruled out only when all corners lie
strictly outside one and the same plane (`AABB.TestFrustum`). -/
def inFrustum (b : Box α) (m : Matrix α) : Bool :=
  let points := b.corners.map (clip m)
  !Axis.all.any fun i => points.all (isOutside i false) || points.all (isOutside i true)

end Box

end BlockWorld.Space
