import Mathlib
import BlockWorld.Space.Box
/-!
The geometry of points and boxes read over the rational numbers, where no operation rounds. Ways
through space add up like numbers along each axis. What the tests of boxes decide is said here
without them: a box whose corners are in order (`Box.Ordered`), a point of a box (`p ∈ b`), and two
boxes that overlap (`Box.Overlap`).

The definitions of boxes and points take any numbers with the operations and comparisons they use. At the
rational numbers these are ordered-field operations, so that a statement about a test becomes one inequality
for each axis (`overlaps_iff`, `Axis.all_all_iff`), which is decided by arithmetic. Moves are compared along
each axis (`ext_get`, `get_along`), and two moves one after the other are one (`Box.translate_add`).
-/
namespace BlockWorld.Space

open Grid

/-- Rational numbers. Rounding to a whole number outside the 64-bit range wraps around. -/
instance : Scalar ℚ where
  zero := 0
  one := 1
  half := 1 / 2
  abs x := |x|
  least := min
  greatest := max
  lt x y := decide (x < y)
  le x y := decide (x ≤ y)
  same x y := decide (x = y)
  ofInt64 n := n.toInt
  floor x := Int64.ofInt ⌊x⌋
  ceil x := Int64.ofInt ⌈x⌉

@[simp] theorem lt_eq_true_iff {x y : ℚ} : Scalar.lt x y = true ↔ x < y := decide_eq_true_iff

@[simp] theorem le_eq_true_iff {x y : ℚ} : Scalar.le x y = true ↔ x ≤ y := decide_eq_true_iff

@[simp] theorem same_eq_true_iff {x y : ℚ} : Scalar.same x y = true ↔ x = y := decide_eq_true_iff

theorem Axis.all_all_iff {test : Axis → Bool} :
    Axis.all.all test = true ↔ ∀ i, test i = true := by
  simp only [Axis.all, List.all_cons, List.all_nil, Bool.and_true, Bool.and_eq_true]
  constructor
  · rintro ⟨hx, hy, hz⟩ i
    cases i <;> assumption
  · intro h
    exact ⟨h .x, h .y, h .z⟩

/-! ## Points -/

namespace Point

theorem ext_get {α : Type} {p q : Point α} (h : ∀ i, p.get i = q.get i) : p = q := by
  obtain ⟨px, py, pz⟩ := p
  obtain ⟨qx, qy, qz⟩ := q
  rw [mk.injEq]
  exact ⟨h .x, h .y, h .z⟩

variable (p q : Point ℚ) (i : Axis)

@[simp] theorem get_add : (p + q).get i = p.get i + q.get i := by cases i <;> rfl

@[simp] theorem get_sub : (p - q).get i = p.get i - q.get i := by cases i <;> rfl

@[simp] theorem get_scale (k : ℚ) : (p.scale k).get i = p.get i * k := by cases i <;> rfl

@[simp] theorem get_diagonal (a : ℚ) : (diagonal a).get i = a := by cases i <;> rfl

theorem get_along (j : Axis) (a : ℚ) : (along j a).get i = if i = j then a else 0 := by
  cases i <;> cases j <;> rfl

instance : Zero (Point ℚ) := ⟨zero⟩

instance : Neg (Point ℚ) := ⟨map (- ·)⟩

@[simp] theorem get_zero : (0 : Point ℚ).get i = 0 := by cases i <;> rfl

@[simp] theorem get_neg : (-p).get i = -p.get i := by cases i <;> rfl

theorem isZero_iff : p.isZero = true ↔ p = 0 := by
  simp only [isZero, Bool.and_eq_true, same_eq_true_iff]
  constructor
  · rintro ⟨⟨hx, hy⟩, hz⟩
    refine ext_get fun i => ?_
    cases i <;> assumption
  · rintro rfl
    exact ⟨⟨rfl, rfl⟩, rfl⟩

end Point

instance : AddCommGroup (Point ℚ) where
  add_assoc p q o := Point.ext_get fun i => by simp only [Point.get_add, add_assoc]
  zero_add p := Point.ext_get fun i => by rw [Point.get_add, Point.get_zero, zero_add]
  add_zero p := Point.ext_get fun i => by rw [Point.get_add, Point.get_zero, add_zero]
  add_comm p q := Point.ext_get fun i => by rw [Point.get_add, Point.get_add, add_comm]
  neg_add_cancel p := Point.ext_get fun i => by
    rw [Point.get_add, Point.get_neg, Point.get_zero, neg_add_cancel]
  sub_eq_add_neg p q := Point.ext_get fun i => by
    rw [Point.get_sub, Point.get_add, Point.get_neg, sub_eq_add_neg]
  nsmul := nsmulRec
  zsmul := zsmulRec

/-! ## Boxes -/

namespace Box

variable (a b : Box ℚ)

/-- Along no axis does the box begin above its end. -/
def Ordered : Prop := ∀ i, b.min.get i ≤ b.max.get i

/-- The points inside a box and on its surface. -/
instance : Membership (Point ℚ) (Box ℚ) :=
  ⟨fun b p => ∀ i, b.min.get i ≤ p.get i ∧ p.get i ≤ b.max.get i⟩

/-- Two boxes overlap when along every axis each begins before the other one ends. -/
def Overlap : Prop := ∀ i, a.min.get i < b.max.get i ∧ b.min.get i < a.max.get i

theorem overlaps_iff : a.overlaps b = true ↔ a.Overlap b := by
  simp only [overlaps, Axis.all_all_iff, Bool.and_eq_true, lt_eq_true_iff]
  rfl

@[simp] theorem get_min_translate (d : Point ℚ) (i : Axis) :
    (b.translate d).min.get i = b.min.get i + d.get i := Point.get_add ..

@[simp] theorem get_max_translate (d : Point ℚ) (i : Axis) :
    (b.translate d).max.get i = b.max.get i + d.get i := Point.get_add ..

@[simp] theorem get_extent (i : Axis) : b.extent.get i = b.max.get i - b.min.get i :=
  Point.get_sub ..

@[simp] theorem translate_zero : b.translate 0 = b := by
  simp only [translate, add_zero]

theorem translate_add (d e : Point ℚ) : b.translate (d + e) = (b.translate d).translate e := by
  simp only [translate, add_assoc]

theorem get_max_unitCube (c : Coord) (i : Axis) :
    (unitCube c : Box ℚ).max.get i = (unitCube c : Box ℚ).min.get i + 1 := by
  simp only [unitCube, Point.get_add, Point.get_diagonal]
  rfl

/-- The box of a cell is a cube with edges of length one. -/
theorem get_extent_unitCube (c : Coord) (i : Axis) : (unitCube c : Box ℚ).extent.get i = 1 := by
  rw [get_extent, get_max_unitCube, add_sub_cancel_left]

end Box

end BlockWorld.Space
