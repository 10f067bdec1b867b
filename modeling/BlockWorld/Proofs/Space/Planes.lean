import BlockWorld.Proofs.Space.Rational
/-!
Boxes against planes. Along a given direction the points of a box reach up to one of its corners
(`support`), which is known from the signs of the direction alone. So a plane meets the box if and
only if it lies between the two corners that are farthest to either side of it
(`meetsPlane_iff_between`). And a box of which some point lies on the inner side of a plane has a
corner there (`exists_corner_margin`): it is enough to look at corners to tell that all of a box is
outside.

How the proof goes. Along each axis the larger of two products is the one at the upper end if the direction is
positive there, and at the lower end otherwise, so the corner is found axis by axis and no point of the box is
farther (`dot_le_dot_support`). The test of the program compares the distance of the center with the extents
projected on the normal, and `dot_support` says that this is the distance of that corner. If a plane lies
between two corners, some point on the segment between them lies on it, and the box is convex (`segment_mem`,
`exists_mem_dot_eq`).

For the clip volume each of its planes is a row of the matrix (`exists_row_clip`), so the corner that is
farthest along this row is as far inside as any point of the box.
-/
namespace BlockWorld.Space

namespace Point

variable (k p q : Point ℚ)

theorem dot_eq_get :
    k.dot p = k.get .x * p.get .x + k.get .y * p.get .y + k.get .z * p.get .z := rfl

theorem dot_sub : k.dot (p - q) = k.dot p - k.dot q := by
  simp only [dot_eq_get, get_sub]
  ring

theorem neg_dot : (-k).dot p = -k.dot p := by
  simp only [dot_eq_get, get_neg]
  ring

theorem dot_segment (t : ℚ) : k.dot (p + (q - p).scale t) = k.dot p + t * (k.dot q - k.dot p) := by
  simp only [dot_eq_get, get_add, get_scale, get_sub]
  ring

variable {k p q}

theorem dot_le_dot (h : ∀ i, k.get i * p.get i ≤ k.get i * q.get i) : k.dot p ≤ k.dot q := by
  simp only [dot_eq_get]
  exact add_le_add (add_le_add (h .x) (h .y)) (h .z)

end Point

namespace Box

variable {b : Box ℚ} {k p q : Point ℚ}

/-! ## The farthest corner -/

/-- The corner of a box that is farthest along a direction. -/
def support (b : Box ℚ) (k : Point ℚ) : Point ℚ :=
  let reach (i : Axis) : ℚ := if 0 ≤ k.get i then b.max.get i else b.min.get i
  ⟨reach .x, reach .y, reach .z⟩

theorem get_support (i : Axis) :
    (b.support k).get i = if 0 ≤ k.get i then b.max.get i else b.min.get i := by
  cases i <;> rfl

/-- The corners are all points that lie at one of the two ends along every axis. -/
theorem mem_corners_iff :
    p ∈ b.corners ↔ ∀ i, p.get i = b.min.get i ∨ p.get i = b.max.get i := by
  constructor
  · intro hp i
    simp only [corners, List.mem_cons, List.not_mem_nil, or_false] at hp
    obtain rfl | rfl | rfl | rfl | rfl | rfl | rfl | rfl := hp <;> cases i <;> simp [Point.get]
  · intro h
    obtain ⟨x, y, z⟩ := p
    obtain rfl | rfl : x = b.min.x ∨ x = b.max.x := h .x <;>
      obtain rfl | rfl : y = b.min.y ∨ y = b.max.y := h .y <;>
      obtain rfl | rfl : z = b.min.z ∨ z = b.max.z := h .z <;> simp [corners]

theorem support_mem_corners : b.support k ∈ b.corners := by
  refine mem_corners_iff.mpr fun i => ?_
  rw [get_support]
  split
  · exact .inr rfl
  · exact .inl rfl

theorem support_mem (hb : b.Ordered) : b.support k ∈ b := by
  intro i
  rw [get_support]
  split
  · exact ⟨hb i, le_rfl⟩
  · exact ⟨le_rfl, hb i⟩

/-- No point of the box is farther along the direction. -/
theorem dot_le_dot_support (hp : p ∈ b) : k.dot p ≤ k.dot (b.support k) := by
  refine Point.dot_le_dot fun i => ?_
  rw [get_support]
  split
  · rename_i hk
    exact mul_le_mul_of_nonneg_left (hp i).2 hk
  · rename_i hk
    exact mul_le_mul_of_nonpos_left (hp i).1 (not_le.mp hk).le

/-- How far the corner is: as far as the center and the extents projected on the direction. -/
theorem dot_support :
    k.dot (b.support k)
      = k.dot b.center + (b.extent.scale Scalar.half).dot (k.map Scalar.abs) := by
  have haxis (i : Axis) : k.get i * (b.support k).get i
      = k.get i * b.center.get i
        + (b.extent.scale Scalar.half).get i * (k.map Scalar.abs).get i := by
    have hcenter : b.center.get i = (b.min.get i + b.max.get i) * (1 / 2) := by
      rw [center, Point.get_scale, Point.get_add]
      rfl
    have habs : (k.map Scalar.abs).get i = |k.get i| := by cases i <;> rfl
    have hhalf : (b.extent.scale Scalar.half).get i = (b.max.get i - b.min.get i) * (1 / 2) := by
      rw [Point.get_scale, get_extent]
      rfl
    rw [get_support, hcenter, habs, hhalf]
    split
    · rename_i hk
      rw [abs_of_nonneg hk]
      ring
    · rename_i hk
      rw [abs_of_neg (not_le.mp hk)]
      ring
  rw [Point.dot_eq_get, Point.dot_eq_get k b.center, Point.dot_eq_get (b.extent.scale _), haxis .x,
    haxis .y, haxis .z]
  ring

/-! ## Planes -/

/-- The box is convex. -/
theorem segment_mem (hp : p ∈ b) (hq : q ∈ b) {t : ℚ} (ht : 0 ≤ t) (ht' : t ≤ 1) :
    p + (q - p).scale t ∈ b := by
  intro i
  obtain ⟨hp, hp'⟩ := hp i
  obtain ⟨hq, hq'⟩ := hq i
  have hrest : 0 ≤ 1 - t := sub_nonneg.mpr ht'
  have hmean : (p + (q - p).scale t).get i = (1 - t) * p.get i + t * q.get i := by
    rw [Point.get_add, Point.get_scale, Point.get_sub]
    ring
  rw [hmean]
  constructor
  · calc b.min.get i = (1 - t) * b.min.get i + t * b.min.get i := by ring
      _ ≤ (1 - t) * p.get i + t * q.get i := by gcongr
  · calc (1 - t) * p.get i + t * q.get i ≤ (1 - t) * b.max.get i + t * b.max.get i := by gcongr
      _ = b.max.get i := by ring

/-- Between two points of the box, a direction takes on all values between theirs. -/
theorem exists_mem_dot_eq (hp : p ∈ b) (hq : q ∈ b) {v : ℚ} (hlow : k.dot p ≤ v)
    (hhigh : v ≤ k.dot q) : ∃ o ∈ b, k.dot o = v := by
  obtain heq | hlt := (hlow.trans hhigh).eq_or_lt
  · exact ⟨p, hp, le_antisymm hlow (heq ▸ hhigh)⟩
  · have hpos : 0 < k.dot q - k.dot p := sub_pos.mpr hlt
    refine ⟨_, segment_mem hp hq (t := (v - k.dot p) / (k.dot q - k.dot p)) ?_ ?_, ?_⟩
    · exact div_nonneg (sub_nonneg.mpr hlow) hpos.le
    · exact (div_le_one hpos).mpr (sub_le_sub_right hhigh _)
    · rw [Point.dot_segment, div_mul_cancel₀ _ hpos.ne', add_sub_cancel]

/-- The test of a plane compares its place along the normal with those of the two farthest
corners. -/
theorem meetsPlane_iff_between (b : Box ℚ) (q n : Point ℚ) :
    b.meetsPlane q n = true
      ↔ n.dot (b.support (-n)) ≤ n.dot q ∧ n.dot q ≤ n.dot (b.support n) := by
  have hhigh := dot_support (b := b) (k := n)
  have hlow := dot_support (b := b) (k := -n)
  -- Turned around, the normal gives the same radius.
  have hsame : (-n).map (Scalar.abs : ℚ → ℚ) = n.map Scalar.abs := by
    refine Point.ext_get fun i => ?_
    cases i <;> exact abs_neg _
  rw [hsame, Point.neg_dot, Point.neg_dot] at hlow
  rw [meetsPlane, le_eq_true_iff]
  change |n.dot (b.center - q)| ≤ _ ↔ _
  rw [abs_le, Point.dot_sub]
  constructor
  · rintro ⟨hl, hr⟩
    constructor <;> linarith
  · rintro ⟨hl, hr⟩
    constructor <;> linarith

/-- The test of a plane is exact: it holds if and only if some point of the box lies on the plane,
whatever the length of the normal. -/
theorem meetsPlane_exact (b : Box ℚ) (hb : b.Ordered) (q n : Point ℚ) :
    b.meetsPlane q n = true ↔ ∃ p ∈ b, n.dot (p - q) = 0 := by
  simp only [meetsPlane_iff_between, Point.dot_sub, sub_eq_zero]
  constructor
  · rintro ⟨hlow, hhigh⟩
    exact exists_mem_dot_eq (support_mem hb) (support_mem hb) hlow hhigh
  · rintro ⟨p, hp, heq⟩
    have hlow : (-n).dot p ≤ (-n).dot (b.support (-n)) := dot_le_dot_support hp
    rw [Point.neg_dot, Point.neg_dot, neg_le_neg_iff] at hlow
    exact ⟨heq ▸ hlow, heq ▸ dot_le_dot_support hp⟩

/-- A flat box is cut by one of two parallel planes, whose normal has a zero and a negative
coordinate. -/
theorem meetsPlane_exact_flat :
    let b : Box ℚ := ⟨⟨0, 0, 1⟩, ⟨2, 2, 1⟩⟩
    let n : Point ℚ := ⟨1, -3, 0⟩
    b.Ordered ∧ (∃ p ∈ b, n.dot (p - ⟨0, 2, 7⟩) = 0) ∧ ¬ ∃ p ∈ b, n.dot (p - ⟨0, 3, 7⟩) = 0 := by
  intro b n
  have hb : b.Ordered := by
    intro i
    cases i <;> decide +kernel
  refine ⟨hb, (meetsPlane_exact b hb ⟨0, 2, 7⟩ n).mp (by decide +kernel), ?_⟩
  rw [← meetsPlane_exact b hb]
  decide +kernel

/-! ## Frusta -/

/-- The entries of a matrix, whose columns stand one after the other. -/
def entry (m : Matrix ℚ) (row column : Fin 4) : ℚ := m.get ⟨4 * column + row, by omega⟩

/-- The product of a matrix and a point with a fourth coordinate of one. -/
def homogeneous (m : Matrix ℚ) (p : Point ℚ) : Fin 4 → ℚ :=
  Matrix.mulVec (Matrix.of (entry m)) ![p.x, p.y, p.z, 1]

theorem homogeneous_eq (m : Matrix ℚ) (p : Point ℚ) (row : Fin 4) :
    homogeneous m p row = entry m row 0 * p.x + entry m row 1 * p.y + entry m row 2 * p.z
      + entry m row 3 := by
  simp [homogeneous, Matrix.mulVec, dotProduct, Fin.sum_univ_four]

theorem clip_eq (m : Matrix ℚ) (p : Point ℚ) :
    clip m p = ⟨homogeneous m p 0, homogeneous m p 1, homogeneous m p 2, homogeneous m p 3⟩ := by
  have hone (x : ℚ) : x * Scalar.one = x := mul_one x
  simp only [clip, homogeneous_eq, hone]
  rfl

/-- The coordinate along an axis comes from one row of the matrix. -/
theorem exists_row_clip (m : Matrix ℚ) (i : Axis) :
    ∃ row, ∀ p, (clip m p).get i = homogeneous m p row := by
  simp only [clip_eq]
  cases i with
  | x => exact ⟨0, fun p => rfl⟩
  | y => exact ⟨1, fun p => rfl⟩
  | z => exact ⟨2, fun p => rfl⟩

theorem isOutside_iff (i : Axis) (upward : Bool) (c : Clip ℚ) :
    isOutside i upward c = true ↔ c.w < (if upward then 1 else -1) * c.get i := by
  rw [isOutside, lt_eq_true_iff]
  cases upward <;> simp

/-- If a point of the box keeps a margin to a plane of the clip volume, a corner keeps one that is
not smaller. -/
theorem exists_corner_margin (m : Matrix ℚ) (hp : p ∈ b) (row : Fin 4) (s : ℚ) :
    ∃ c ∈ b.corners, homogeneous m p 3 - s * homogeneous m p row
      ≤ homogeneous m c 3 - s * homogeneous m c row := by
  -- The margin is an affine function of the point, so it is greatest at the corner along its slope.
  let k : Point ℚ := ⟨entry m 3 0 - s * entry m row 0, entry m 3 1 - s * entry m row 1,
    entry m 3 2 - s * entry m row 2⟩
  have hmargin (q : Point ℚ) : homogeneous m q 3 - s * homogeneous m q row
      = k.dot q + (entry m 3 3 - s * entry m row 3) := by
    simp only [homogeneous_eq, Point.dot_eq_get, Point.get, k]
    ring
  refine ⟨b.support k, support_mem_corners, ?_⟩
  rw [hmargin, hmargin]
  exact add_le_add_left (dot_le_dot_support hp) _

/-- Not all corners lie outside a plane of the clip volume if some point of the box does not. -/
theorem all_isOutside_eq_false (m : Matrix ℚ) (hp : p ∈ b) (i : Axis) (upward : Bool)
    (hin : isOutside i upward (clip m p) = false) :
    (b.corners.map (clip m)).all (isOutside i upward) = false := by
  obtain ⟨row, hrow⟩ := exists_row_clip m i
  obtain ⟨c, hc, hmargin⟩ := exists_corner_margin m hp row (if upward then 1 else -1)
  have hw (q : Point ℚ) : (clip m q).w = homogeneous m q 3 := by rw [clip_eq]
  rw [← Bool.not_eq_true, isOutside_iff, hrow, hw] at hin
  refine List.all_eq_false.mpr ⟨clip m c, List.mem_map_of_mem hc, ?_⟩
  rw [isOutside_iff, hrow, hw]
  linarith

/-- A box is never ruled out if one of its points lies in the clip volume. -/
theorem inFrustum_of_visible (b : Box ℚ) (m : Matrix ℚ) (p : Point ℚ) (hp : p ∈ b)
    (hx : -homogeneous m p 3 ≤ homogeneous m p 0 ∧ homogeneous m p 0 ≤ homogeneous m p 3)
    (hy : -homogeneous m p 3 ≤ homogeneous m p 1 ∧ homogeneous m p 1 ≤ homogeneous m p 3)
    (hz : -homogeneous m p 3 ≤ homogeneous m p 2 ∧ homogeneous m p 2 ≤ homogeneous m p 3) :
    b.inFrustum m = true := by
  have hbetween (i : Axis) : -(clip m p).w ≤ (clip m p).get i ∧ (clip m p).get i ≤ (clip m p).w := by
    rw [clip_eq]
    cases i <;> assumption
  have hin (i : Axis) (upward : Bool) : isOutside i upward (clip m p) = false := by
    obtain ⟨hlow, hhigh⟩ := hbetween i
    rw [← Bool.not_eq_true, isOutside_iff, not_lt]
    cases upward
    · simpa using neg_le.mp hlow
    · simpa using hhigh
  have hnone : Axis.all.any (fun i => (b.corners.map (clip m)).all (isOutside i false)
      || (b.corners.map (clip m)).all (isOutside i true)) = false := by
    refine List.any_eq_false.mpr fun i _ => ?_
    rw [all_isOutside_eq_false m hp i false (hin i false),
      all_isOutside_eq_false m hp i true (hin i true)]
    decide
  rw [inFrustum, hnone]
  rfl

/-- A wide slab in front of a camera has all its corners outside the field of view, some to the left
and some to the right, and its middle inside. -/
theorem inFrustum_of_visible_slab :
    let b : Box ℚ := ⟨⟨-500, -500, -50⟩, ⟨500, 500, -40⟩⟩
    let m : Matrix ℚ := #v[1, 0, 0, 0, 0, 1, 0, 0, 0, 0, -1, -1, 0, 0, -2, 0]
    let p : Point ℚ := ⟨0, 0, -45⟩
    p ∈ b ∧ homogeneous m p = ![0, 0, 43, 45]
      ∧ (∀ c ∈ b.corners, homogeneous m c 3 < |homogeneous m c 0|) ∧ b.inFrustum m = true := by
  intro b m p
  have hp : p ∈ b := by
    intro i
    cases i <;> decide +kernel
  have hclip : homogeneous m p = ![0, 0, 43, 45] := by
    decide +kernel
  refine ⟨hp, hclip, ?_, inFrustum_of_visible b m p hp ?_ ?_ ?_⟩
  · decide +kernel
  all_goals
    rw [hclip]
    decide +kernel

end Box

end BlockWorld.Space
