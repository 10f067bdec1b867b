import BlockWorld.Proofs.Grid
import BlockWorld.Proofs.Space.Separation
import BlockWorld.Proofs.World.Blocks
import BlockWorld.World.Query
/-!
How a box is pushed out of the blocks around it. The cells are looked at one after the other
(`scan`), and each push moves the box before the next cell is looked at. So after any number of cells
the box stands where the sum of the pushes so far takes it (`foldl_pushFrom`). The cells are those
around the box as it was at first, and among them are all that it overlaps (`mem_scan_of_overlap`).

How the proof goes. Three nested loops are one list of cells (`escape_eq_foldl_scan`). The fold over it
carries a box and the sum of the pushes, and `foldl_pushFrom` says of both, for any start, that they follow
the list of pushes (`Escape.pushes`); the induction is on the cells. If no cell pushes, the box never moves,
so that all cells were tested against the same box (`pushes_eq_nil_iff`). A cell that overlaps the box is in
the list because along each axis it begins below the upper end of the box and ends above the lower one
(`mem_span_of_overlap`), as long as the numbers of the cells do not wrap around (`WellInside`). Such a cell
may still not push, if it lies within the box along every axis (`one_le_of_pushAt`).
-/
namespace BlockWorld.World

open Grid Space

variable {w : World} {box : Box ℚ}

/-! ## The cells around a box -/

/-- The cells that are looked at, in order. -/
def scan (box : Box ℚ) : List Coord :=
  let lo := box.min.floor - ⟨1, 1, 1⟩
  let hi := box.max.ceil
  (span lo.x hi.x).flatMap fun x =>
    (span lo.y hi.y).flatMap fun y => (span lo.z hi.z).map fun z => ⟨x, y, z⟩

theorem escape_eq_foldl_scan (w : World) (box : Box ℚ) :
    escape w box = (scan box).foldl (Escape.pushFrom w) ⟨box, .zero⟩ := by
  simp only [escape, scan, List.foldl_flatMap, List.foldl_map]

/-- The coordinates of a box stay at least one cell away from the ends of the 64-bit range. -/
def WellInside (box : Box ℚ) : Prop :=
  ∀ i, -9223372036854775807 ≤ box.min.get i ∧ box.max.get i ≤ 9223372036854775806

/-- Along one axis, a cell that begins below the upper end of the box and ends above the lower one
is among those that are looked at. -/
theorem mem_span_of_overlap {lo hi : ℚ} (hlo : -9223372036854775807 ≤ lo)
    (hhi : hi ≤ 9223372036854775806) {n : Int64} (hn : (n.toInt : ℚ) < hi)
    (hn' : lo < n.toInt + 1) : n ∈ span (Scalar.floor lo - 1) (Scalar.ceil hi) := by
  have hfloor : -9223372036854775807 ≤ ⌊lo⌋ := Int.le_floor.mpr (by exact_mod_cast hlo)
  have hceil : ⌈hi⌉ ≤ 9223372036854775806 := Int.ceil_le.mpr (by exact_mod_cast hhi)
  have hbelow : ⌊lo⌋ < n.toInt + 1 := Int.floor_lt.mpr (by exact_mod_cast hn')
  have habove : n.toInt < ⌈hi⌉ := Int.lt_ceil.mpr hn
  have hfirst : (Scalar.floor lo - 1 : Int64).toInt = ⌊lo⌋ - 1 := by
    change (Int64.ofInt ⌊lo⌋ - Int64.ofInt 1).toInt = _
    rw [← Int64.ofInt_sub]
    exact Int64.toInt_ofInt_of_le (by omega) (by omega)
  have hlast : (Scalar.ceil hi : Int64).toInt = ⌈hi⌉ :=
    Int64.toInt_ofInt_of_le (by omega) (by omega)
  rw [mem_span, Int64.le_iff_toInt_le, Int64.le_iff_toInt_le, hfirst, hlast]
  omega

theorem mem_scan_of_overlap (hin : WellInside box) {c : Coord} (h : (Box.unitCube c).Overlap box) :
    c ∈ scan box := by
  have hspan (i : Axis) {n : Int64} (hn : (Box.unitCube c : Box ℚ).min.get i = n.toInt) :
      n ∈ span (Scalar.floor (box.min.get i) - 1) (Scalar.ceil (box.max.get i)) := by
    obtain ⟨hlow, hhigh⟩ := h i
    rw [Box.get_max_unitCube] at hhigh
    exact mem_span_of_overlap (hin i).1 (hin i).2 (hn ▸ hlow) (hn ▸ hhigh)
  simp only [scan, List.mem_flatMap, List.mem_map]
  exact ⟨c.x, hspan .x rfl, c.y, hspan .y rfl, c.z, hspan .z rfl, rfl⟩

/-! ## Pushes -/

/-- The push that a cell gives to a box. -/
def pushAt (w : World) (box : Box ℚ) (c : Coord) : Option (Point ℚ) :=
  if (w.block? c).isSome then (Box.unitCube c).separate box else none

/-- The pushes that cells give to a box one after the other. -/
def Escape.pushes (w : World) : Escape ℚ → List Coord → List (Point ℚ)
  | _, [] => []
  | s, c :: cells => (pushAt w s.box c).toList ++ Escape.pushes w (s.pushFrom w c) cells

theorem Escape.pushFrom_of_none {s : Escape ℚ} {c : Coord} (h : pushAt w s.box c = none) :
    s.pushFrom w c = s := by
  unfold pushAt at h
  unfold pushFrom
  split at h
  · rename_i hsolid
    rw [if_pos hsolid, h]
  · rename_i hclear
    rw [if_neg hclear]

theorem Escape.pushFrom_of_some {s : Escape ℚ} {c : Coord} {d : Point ℚ}
    (h : pushAt w s.box c = some d) : s.pushFrom w c = ⟨s.box.translate d, s.total + d⟩ := by
  unfold pushAt at h
  unfold pushFrom
  split at h
  · rename_i hsolid
    rw [if_pos hsolid, h]
  · cases h

/-- The box and the sum follow the pushes. -/
theorem foldl_pushFrom (w : World) (s : Escape ℚ) (cells : List Coord) :
    cells.foldl (Escape.pushFrom w) s
      = ⟨s.box.translate (s.pushes w cells).sum, s.total + (s.pushes w cells).sum⟩ := by
  induction cells generalizing s with
  | nil => simp [Escape.pushes]
  | cons c cells ih =>
    rw [List.foldl_cons, ih, Escape.pushes]
    cases hpush : pushAt w s.box c with
    | none => rw [Escape.pushFrom_of_none hpush, Option.toList_none, List.nil_append]
    | some d =>
      rw [Escape.pushFrom_of_some hpush, Option.toList_some, List.singleton_append, List.sum_cons,
        ← Box.translate_add, add_assoc]

theorem pushes_append (s : Escape ℚ) (before after : List Coord) :
    s.pushes w (before ++ after)
      = s.pushes w before ++ (before.foldl (Escape.pushFrom w) s).pushes w after := by
  induction before generalizing s with
  | nil => rfl
  | cons c before ih =>
    rw [List.cons_append, Escape.pushes, ih, ← List.append_assoc, List.foldl_cons]
    rfl

/-- As long as there is no push, all cells are tested against the same box. -/
theorem pushes_eq_nil_iff {s : Escape ℚ} {cells : List Coord} :
    s.pushes w cells = [] ↔ ∀ c ∈ cells, pushAt w s.box c = none := by
  induction cells generalizing s with
  | nil => simp [Escape.pushes]
  | cons c cells ih =>
    rw [Escape.pushes, List.append_eq_nil_iff, Option.toList_eq_nil_iff, List.forall_mem_cons]
    refine and_congr_right fun hpush => ?_
    rw [Escape.pushFrom_of_none hpush, ih]

/-- A block that overlaps the box and does not push it lies within the box along every axis. -/
theorem one_le_of_pushAt {c : Coord} (hsolid : (w.block? c).isSome = true)
    (h : (Box.unitCube c).Overlap box) (hnone : pushAt w box c = none) (i : Axis) :
    1 ≤ box.max.get i - (Box.unitCube c : Box ℚ).min.get i
      ∧ 1 ≤ (Box.unitCube c : Box ℚ).max.get i - box.min.get i := by
  rw [pushAt, if_pos hsolid] at hnone
  by_contra hshort
  rw [not_and_or, not_le, not_le] at hshort
  obtain ⟨p, hp, hlt⟩ := Box.exists_short_iff.mpr ⟨i, hshort⟩
  obtain ⟨q, hfound, -⟩ :=
    Box.exists_firstShortest_of_admitted (Box.get_extent_unitCube c) h hp hlt
  rw [hnone] at hfound
  cases hfound

theorem collide_total (w : World) (box : Box ℚ) :
    (collide w box).1 = (Escape.pushes w ⟨box, .zero⟩ (scan box)).sum := by
  rw [collide, escape_eq_foldl_scan, foldl_pushFrom]
  exact zero_add _

theorem collide_moved (w : World) (box : Box ℚ) :
    (collide w box).2.1 = true ↔ (collide w box).1 ≠ 0 := by
  have hmoved : (collide w box).2.1 = !(collide w box).1.isZero := rfl
  rw [hmoved, Bool.not_eq_true', Bool.eq_false_iff, Ne, Point.isZero_iff]

/-- No block that overlaps a box is overlooked. Without one the box stays where it is. If no cell
pushes the box, each block that overlaps it has its whole cell within the box, so that all ways out
have a length of at least one. In all cases the cells are gone through one by one, every cell is
tested against the box moved by the sum of the pushes before it, the result is the sum of all pushes,
and the box is said to have moved if and only if that sum is not zero. -/
theorem collide_overlooks_none (w : World) (box : Box ℚ) (hin : WellInside box) :
    let start : Escape ℚ := ⟨box, .zero⟩
    let pushes := start.pushes w (scan box)
    ((∀ c, (w.block? c).isSome = true → ¬ (Box.unitCube c).Overlap box) →
        (collide w box).1 = 0 ∧ (collide w box).2.1 = false)
      ∧ (pushes = [] →
        ∀ c, (w.block? c).isSome = true → (Box.unitCube c).Overlap box →
          ∀ i, 1 ≤ box.max.get i - (Box.unitCube c : Box ℚ).min.get i
            ∧ 1 ≤ (Box.unitCube c : Box ℚ).max.get i - box.min.get i)
      ∧ escape w box = (scan box).foldl (Escape.pushFrom w) start
      ∧ (∀ before c after, scan box = before ++ c :: after →
        let tested := (before.foldl (Escape.pushFrom w) start).box
        tested = box.translate (start.pushes w before).sum
          ∧ start.pushes w (before ++ [c]) = start.pushes w before ++ (pushAt w tested c).toList)
      ∧ (collide w box).1 = pushes.sum ∧ ((collide w box).2.1 = true ↔ pushes.sum ≠ 0) := by
  intro start pushes
  have htotal : (collide w box).1 = pushes.sum := collide_total w box
  refine ⟨fun hclear => ?_, fun hnone c hsolid hoverlap i => ?_, escape_eq_foldl_scan w box,
    fun before c after _ => ?_, htotal, htotal ▸ collide_moved w box⟩
  · have hnone : pushes = [] := by
      refine pushes_eq_nil_iff.mpr fun c _ => ?_
      unfold pushAt
      split
      · rename_i hsolid
        exact Box.separate_of_not_overlap (hclear c hsolid)
      · rfl
    have hzero : (collide w box).1 = 0 := by rw [htotal, hnone, List.sum_nil]
    exact ⟨hzero, Bool.eq_false_iff.mpr fun hmoved => (collide_moved w box).mp hmoved hzero⟩
  · exact one_le_of_pushAt hsolid hoverlap
      (pushes_eq_nil_iff.mp hnone c (mem_scan_of_overlap hin hoverlap)) i
  · refine ⟨by rw [foldl_pushFrom], ?_⟩
    rw [pushes_append, Escape.pushes, Escape.pushes, List.append_nil]

/-! ## One stone -/

/-- A world with a stone at the origin and nothing else. -/
def oneStone : World := (new 1 "" .zero "").setBlock .origin Block.stone

theorem isSome_block?_oneStone (c : Coord) :
    (oneStone.block? c).isSome = true ↔ c = .origin := by
  rw [oneStone, block?_setBlock (owned_new 1 "" .zero ""), block?_new]
  by_cases hc : c = .origin
  · simp only [hc, if_true]
    decide
  · simp [hc]

/-- A box that stands on the stone stays there. One that has sunk into it by a tenth is pushed. -/
theorem collide_overlooks_none_stone :
    let standing : Box ℚ := ⟨⟨1 / 5, 1, 1 / 5⟩, ⟨4 / 5, 14 / 5, 4 / 5⟩⟩
    let sunk : Box ℚ := ⟨⟨1 / 5, 9 / 10, 1 / 5⟩, ⟨4 / 5, 27 / 10, 4 / 5⟩⟩
    WellInside standing ∧ (collide oneStone standing).1 = 0
      ∧ (collide oneStone standing).2.1 = false
      ∧ WellInside sunk ∧ Escape.pushes oneStone ⟨sunk, .zero⟩ (scan sunk) ≠ [] := by
  intro standing sunk
  have hstanding : WellInside standing := by
    intro i
    cases i <;> decide +kernel
  have hsunk : WellInside sunk := by
    intro i
    cases i <;> decide +kernel
  have hclear : ∀ c, (oneStone.block? c).isSome = true → ¬ (Box.unitCube c).Overlap standing := by
    intro c hsolid
    rw [(isSome_block?_oneStone c).mp hsolid, ← Box.overlaps_iff]
    decide +kernel
  obtain ⟨hzero, hstays⟩ := (collide_overlooks_none oneStone standing hstanding).1 hclear
  refine ⟨hstanding, hzero, hstays, hsunk, fun hnone => ?_⟩
  have hlong := (collide_overlooks_none oneStone sunk hsunk).2.1 hnone .origin
    ((isSome_block?_oneStone _).mpr rfl) ((Box.overlaps_iff _ _).mp (by decide +kernel)) .y
  exact absurd hlong.2 (by decide +kernel)

end BlockWorld.World
