import BlockWorld.Grid.Local
/-!
Positions and the cubes that hold them. A component of a position is sixteen times the component of
its parent cube plus its place in the cube, and none of these steps leaves the 64-bit range. So a
position is known by its parent and its place (`Coord.eq_of_parent_place`), and a parent is never at
the end of the 64-bit range (`Coord.negatable_parent`), which is what keeps the magnitude of a
megachunk coordinate from wrapping around. Back from a cube to its cells, a position is the first of
its cube plus its place (`Coord.scale_parent_add_place`); the first cell of a cube far out may wrap
around, and all cells of the cube follow it (`Coord.parent_scale_add`). A span holds the numbers
between its ends, each once (`mem_span`, `nodup_span`).

How the proof goes. The program divides with a quotient that is cut toward zero and corrects it.
`toInt_floorDiv_edge` and `toInt_floorMod_edge` say once that the outcome is the floor division of integers,
and after that `omega` decides what is asked about one axis; positions are three of these. The way back needs
a product, which may wrap around. Sixteen divides the size of the range, so the product is a multiple of
sixteen even then (`toInt_mul_edge`), and a cell of the cube has its first cell's parent
(`floorDiv_mul_edge_add`). If the cube holds any position, nothing wraps (`toInt_floorDiv_mul_edge`).
-/
namespace BlockWorld.Grid

/-! ## Components -/

/-- The quotient cut toward zero and its remainder, which has the sign of the dividend. -/
theorem tdiv_tmod_sixteen (n : Int) :
    16 * n.tdiv 16 + n.tmod 16 = n ∧ -16 < n.tmod 16 ∧ n.tmod 16 < 16 :=
  ⟨Int.mul_tdiv_add_tmod n 16, Int.lt_tmod_of_pos n (by decide), Int.tmod_lt_of_pos n (by decide)⟩

/-- Rounding a quotient by sixteen down is the floor division of integers. -/
theorem toInt_floorDiv_edge (a : Int64) : (floorDiv a edge).toInt = a.toInt / 16 := by
  have hlo := Int64.le_toInt a
  have hhi := Int64.toInt_lt a
  have hcut := tdiv_tmod_sixteen a.toInt
  have hq : (a / edge).toInt = a.toInt.tdiv 16 := by
    rw [Int64.toInt_div_of_ne_right a edge (by decide)]
    rfl
  have hr : (a % edge).toInt = a.toInt.tmod 16 := by
    rw [Int64.toInt_mod]
    rfl
  unfold floorDiv
  split
  · rename_i h
    rw [Int64.lt_iff_toInt_lt, hr] at h
    change a.toInt.tmod 16 < 0 at h
    rw [Int64.toInt_sub, hq]
    change (a.toInt.tdiv 16 - 1).bmod (2 ^ 64) = a.toInt / 16
    rw [Int.bmod_eq_of_le (by omega) (by omega)]
    omega
  · rename_i h
    rw [Int64.lt_iff_toInt_lt, hr] at h
    change ¬ a.toInt.tmod 16 < 0 at h
    rw [hq]
    omega

/-- The remainder by sixteen is the one of integers, from zero to fifteen. -/
theorem toInt_floorMod_edge (a : Int64) : (floorMod a edge).toInt = a.toInt % 16 := by
  have hcut := tdiv_tmod_sixteen a.toInt
  have hr : (a % edge).toInt = a.toInt.tmod 16 := by
    rw [Int64.toInt_mod]
    rfl
  unfold floorMod
  split
  · rename_i h
    rw [Int64.lt_iff_toInt_lt, hr] at h
    change a.toInt.tmod 16 < 0 at h
    rw [Int64.toInt_add, hr]
    change (a.toInt.tmod 16 + 16).bmod (2 ^ 64) = a.toInt % 16
    rw [Int.bmod_eq_of_le (by omega) (by omega)]
    omega
  · rename_i h
    rw [Int64.lt_iff_toInt_lt, hr] at h
    change ¬ a.toInt.tmod 16 < 0 at h
    rw [hr]
    omega

/-- The place of a component is its remainder by sixteen. -/
theorem sixteenth_val (a : Int64) : ((sixteenth a).val : Int) = a.toInt % 16 := by
  have h := toInt_floorMod_edge a
  simp only [sixteenth, ← Int64.toNat_toInt]
  omega

/-- A component is known by its parent and its place. -/
theorem eq_of_floorDiv_sixteenth {a b : Int64} (hq : floorDiv a edge = floorDiv b edge)
    (hr : sixteenth a = sixteenth b) : a = b := by
  have hqa := toInt_floorDiv_edge a
  have hqb := toInt_floorDiv_edge b
  have hra := sixteenth_val a
  have hrb := sixteenth_val b
  rw [hq] at hqa
  rw [hr] at hra
  apply Int64.toInt_inj.mp
  omega

/-- A parent is never the least 64-bit integer. -/
theorem floorDiv_edge_ne_minValue (a : Int64) : floorDiv a edge ≠ Int64.minValue := by
  intro h
  have hlo := Int64.le_toInt a
  have hquotient := toInt_floorDiv_edge a
  rw [h, Int64.toInt_minValue] at hquotient
  omega

/-! ## Positions -/

namespace Coord

/-- A position is known by its parent and its place in it. -/
theorem eq_of_parent_place {p q : Coord} (hp : p.parent = q.parent) (hl : p.place = q.place) :
    p = q := by
  obtain ⟨px, py, pz⟩ := p
  obtain ⟨qx, qy, qz⟩ := q
  simp only [parent, floorDiv, map, mk.injEq] at hp
  simp only [place, Local.mk.injEq] at hl
  rw [eq_of_floorDiv_sixteenth hp.1 hl.1, eq_of_floorDiv_sixteenth hp.2.1 hl.2.1,
    eq_of_floorDiv_sixteenth hp.2.2 hl.2.2]

/-- Positions are the same if and only if parent and place are. -/
theorem parent_place_eq_iff {p q : Coord} : (p.parent = q.parent ∧ p.place = q.place) ↔ p = q := by
  constructor
  · rintro ⟨hp, hl⟩
    exact eq_of_parent_place hp hl
  · rintro rfl
    exact ⟨rfl, rfl⟩

/-- No component is the least 64-bit integer, the only one without a negative. -/
def Negatable (c : Coord) : Prop :=
  c.x ≠ Int64.minValue ∧ c.y ≠ Int64.minValue ∧ c.z ≠ Int64.minValue

theorem negatable_parent (c : Coord) : c.parent.Negatable :=
  ⟨floorDiv_edge_ne_minValue c.x, floorDiv_edge_ne_minValue c.y, floorDiv_edge_ne_minValue c.z⟩

end Coord

/-! ## Cubes and their cells -/

/-- Sixteen times a component is a multiple of sixteen again after it has wrapped around. -/
theorem toInt_mul_edge (a : Int64) :
    ∃ k : Int, (a * edge).toInt = 16 * k ∧ -576460752303423488 ≤ k ∧ k < 576460752303423488 := by
  have hlo := Int64.le_toInt (a * edge)
  have hhi := Int64.toInt_lt (a * edge)
  have hmul : (a * edge).toInt = (a.toInt * 16).bmod (2 ^ 64) := Int64.toInt_mul a edge
  have hwrap := Int.bmod_add_bdiv (a.toInt * 16) (2 ^ 64)
  refine ⟨a.toInt - 2 ^ 60 * (a.toInt * 16).bdiv (2 ^ 64), ?_, ?_, ?_⟩ <;> omega

/-- The cells of a cube along one axis have the parent of the first one, and their places are their
distances from it. -/
theorem floorDiv_mul_edge_add (a : Int64) {n : Int64} (hlo : 0 ≤ n) (hhi : n < edge) :
    floorDiv (a * edge + n) edge = floorDiv (a * edge) edge
      ∧ sixteenth (a * edge + n) = sixteenth n := by
  obtain ⟨k, hk, hklo, hkhi⟩ := toInt_mul_edge a
  have hn0 : 0 ≤ n.toInt := Int64.le_iff_toInt_le.mp hlo
  have hn16 : n.toInt < 16 := Int64.lt_iff_toInt_lt.mp hhi
  have hsum : (a * edge + n).toInt = 16 * k + n.toInt := by
    rw [Int64.toInt_add, hk, Int.bmod_eq_of_le (by omega) (by omega)]
  constructor
  · apply Int64.toInt_inj.mp
    rw [toInt_floorDiv_edge, toInt_floorDiv_edge, hsum, hk]
    omega
  · apply Fin.ext
    have hleft := sixteenth_val (a * edge + n)
    have hright := sixteenth_val n
    rw [hsum] at hleft
    omega

/-- The first component of a cube does not wrap around, if the cube has any component. -/
theorem toInt_floorDiv_mul_edge (a : Int64) :
    (floorDiv a edge * edge).toInt = a.toInt / 16 * 16 := by
  have hlo := Int64.le_toInt a
  have hhi := Int64.toInt_lt a
  rw [Int64.toInt_mul, toInt_floorDiv_edge]
  exact Int.bmod_eq_of_le (by change _ ≤ _ * (16 : Int); omega)
    (by change _ * (16 : Int) < _; omega)

/-- Nor do the components after it. -/
theorem toInt_floorDiv_mul_edge_add (a : Int64) :
    (floorDiv a edge * edge + floorMod a edge).toInt = a.toInt / 16 * 16 + a.toInt % 16 := by
  have hlo := Int64.le_toInt a
  have hhi := Int64.toInt_lt a
  rw [Int64.toInt_add, toInt_floorDiv_mul_edge, toInt_floorMod_edge,
    Int.bmod_eq_of_le (by omega) (by omega)]

/-- The place of a component is its remainder. -/
theorem ofNat_sixteenth (a : Int64) : Int64.ofNat (sixteenth a).val = floorMod a edge := by
  have hplace := sixteenth_val a
  apply Int64.toInt_inj.mp
  rw [Int64.toInt_ofNat_of_lt (by omega), hplace, toInt_floorMod_edge]

/-- A component is the first of its cube plus its place. -/
theorem floorDiv_mul_edge_add_sixteenth (a : Int64) :
    floorDiv a edge * edge + Int64.ofNat (sixteenth a).val = a := by
  apply Int64.toInt_inj.mp
  rw [ofNat_sixteenth, toInt_floorDiv_mul_edge_add]
  omega

namespace Coord

theorem isLocal_iff (p : Coord) :
    p.isLocal = true ↔ (0 ≤ p.x ∧ p.x < edge) ∧ (0 ≤ p.y ∧ p.y < edge) ∧ 0 ≤ p.z ∧ p.z < edge := by
  simp [isLocal, and_assoc]

theorem add_assoc (p q o : Coord) : p + q + o = p + (q + o) := by
  simp only [HAdd.hAdd, Add.add, mk.injEq]
  exact ⟨Int64.add_assoc .., Int64.add_assoc .., Int64.add_assoc ..⟩

/-- The cells of a cube, counted from its first one, all have the same parent. -/
theorem parent_scale_add (c : Coord) {n : Coord} (hn : n.isLocal = true) :
    (c.scale edge + n).parent = (c.scale edge).parent := by
  obtain ⟨⟨hx, hx'⟩, ⟨hy, hy'⟩, hz, hz'⟩ := n.isLocal_iff.mp hn
  have hfx := (floorDiv_mul_edge_add c.x hx hx').1
  have hfy := (floorDiv_mul_edge_add c.y hy hy').1
  have hfz := (floorDiv_mul_edge_add c.z hz hz').1
  show (⟨_, _, _⟩ : Coord) = ⟨_, _, _⟩
  rw [mk.injEq]
  exact ⟨hfx, hfy, hfz⟩

theorem place_scale_add (c : Coord) {n : Coord} (hn : n.isLocal = true) :
    (c.scale edge + n).place = n.place := by
  obtain ⟨⟨hx, hx'⟩, ⟨hy, hy'⟩, hz, hz'⟩ := n.isLocal_iff.mp hn
  have hfx := (floorDiv_mul_edge_add c.x hx hx').2
  have hfy := (floorDiv_mul_edge_add c.y hy hy').2
  have hfz := (floorDiv_mul_edge_add c.z hz hz').2
  show (⟨_, _, _⟩ : Local) = ⟨_, _, _⟩
  rw [Local.mk.injEq]
  exact ⟨hfx, hfy, hfz⟩

/-- A position is the first of its cube plus its place. -/
theorem scale_parent_add_place (p : Coord) : p.parent.scale edge + p.place.toCoord = p := by
  have hx := floorDiv_mul_edge_add_sixteenth p.x
  have hy := floorDiv_mul_edge_add_sixteenth p.y
  have hz := floorDiv_mul_edge_add_sixteenth p.z
  show (⟨_, _, _⟩ : Coord) = p
  obtain ⟨x, y, z⟩ := p
  rw [mk.injEq]
  exact ⟨hx, hy, hz⟩

end Coord

/-- The first cell of a cube lies in the cube, unless the cube is too far out for its cells to have
positions of their own. -/
theorem floorDiv_mul_edge {a : Int64} (hlo : -576460752303423488 ≤ a.toInt)
    (hhi : a.toInt < 576460752303423488) : floorDiv (a * edge) edge = a := by
  have hmul : (a * edge).toInt = a.toInt * 16 := by
    rw [Int64.toInt_mul]
    exact Int.bmod_eq_of_le (by change _ ≤ _ * (16 : Int); omega)
      (by change _ * (16 : Int) < _; omega)
  apply Int64.toInt_inj.mp
  rw [toInt_floorDiv_edge, hmul]
  omega

/-- Places are positions between 0 and 15. -/
theorem Local.isLocal_toCoord (l : Local) : l.toCoord.isLocal = true := by
  have hbetween : ∀ i : Fin 16, 0 ≤ Int64.ofNat i.val ∧ Int64.ofNat i.val < edge := by decide
  exact l.toCoord.isLocal_iff.mpr ⟨hbetween l.x, hbetween l.y, hbetween l.z⟩

/-- The first cell of a cube lies in the cube, if any position does. -/
theorem Coord.parent_scale_parent (p : Coord) : (p.parent.scale edge).parent = p.parent := by
  have hcell := p.parent.parent_scale_add p.place.isLocal_toCoord
  rw [p.scale_parent_add_place] at hcell
  exact hcell.symm

/-! ## The order of positions -/

namespace Coord

theorem le_iff (p q : Coord) :
    p.le q = true ↔ p.x.toInt < q.x.toInt ∨ p.x.toInt = q.x.toInt
      ∧ (p.y.toInt < q.y.toInt ∨ p.y.toInt = q.y.toInt ∧ p.z.toInt ≤ q.z.toInt) := by
  unfold le
  by_cases hx : p.x = q.x
  · by_cases hy : p.y = q.y
    · simp [hx, hy, Int64.le_iff_toInt_le]
    · simp [hx, hy, Int64.lt_iff_toInt_lt, Int64.toInt_inj]
  · simp [hx, Int64.lt_iff_toInt_lt, Int64.toInt_inj]

theorem le_trans (p q o : Coord) (hpq : p.le q = true) (hqo : q.le o = true) : p.le o = true := by
  rw [le_iff] at hpq hqo ⊢
  omega

theorem le_total (p q : Coord) : (p.le q || q.le p) = true := by
  rw [Bool.or_eq_true, le_iff, le_iff]
  omega

theorem le_antisymm {p q : Coord} (hpq : p.le q = true) (hqp : q.le p = true) : p = q := by
  rw [le_iff] at hpq hqp
  obtain ⟨px, py, pz⟩ := p
  obtain ⟨qx, qy, qz⟩ := q
  simp only [mk.injEq, ← Int64.toInt_inj]
  simp only at hpq hqp
  omega

end Coord

/-! ## Spans -/

theorem toInt_add_ofNat {a : Int64} {n : Nat} (h : a.toInt + n < 9223372036854775808) :
    (a + Int64.ofNat n).toInt = a.toInt + n := by
  have hlo := Int64.le_toInt a
  rw [Int64.toInt_add, Int64.toInt_ofNat', Int64.size, Int.add_bmod_bmod]
  exact Int.bmod_eq_of_le (by omega) (by omega)

/-- Counting up from the lower end of a span stays below the upper end. -/
theorem toInt_add_ofNat_span {lo hi : Int64} {i : Nat} (h : i < (hi.toInt - lo.toInt + 1).toNat) :
    (lo + Int64.ofNat i).toInt = lo.toInt + i := by
  have hhi := Int64.toInt_lt hi
  exact toInt_add_ofNat (by omega)

theorem mem_span {lo hi a : Int64} : a ∈ span lo hi ↔ lo ≤ a ∧ a ≤ hi := by
  simp only [span, List.mem_map, List.mem_range, Int64.le_iff_toInt_le]
  constructor
  · rintro ⟨i, hlt, rfl⟩
    rw [toInt_add_ofNat_span hlt]
    omega
  · rintro ⟨hlo, hhi⟩
    have hlt : (a.toInt - lo.toInt).toNat < (hi.toInt - lo.toInt + 1).toNat := by omega
    refine ⟨(a.toInt - lo.toInt).toNat, hlt, Int64.toInt_inj.mp ?_⟩
    rw [toInt_add_ofNat_span hlt]
    omega

theorem nodup_span (lo hi : Int64) : (span lo hi).Nodup := by
  rw [span, List.Nodup, List.pairwise_map]
  refine List.nodup_range.imp_of_mem ?_
  intro i j hlt hlt' hne heq
  rw [List.mem_range] at hlt hlt'
  have hsum := congrArg Int64.toInt heq
  rw [toInt_add_ofNat_span hlt, toInt_add_ofNat_span hlt'] at hsum
  omega

end BlockWorld.Grid
