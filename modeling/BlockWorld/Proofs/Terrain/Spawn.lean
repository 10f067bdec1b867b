import Mathlib.Data.List.Nodup
import BlockWorld.Proofs.Terrain.Writes
import BlockWorld.Terrain.Generate
/-!
The chunks around the origin and where their blocks come to lie. They form a square of columns of
chunks (`mem_spawnChunks`), each counted once. For a landscape that keeps below its own bounds
(`Landscape.Bounded`) no block of theirs is written below the bottom or above the greatest height
(`Landscape.Bounded.height_of_mem`), trees begin above the ground and the water
(`Landscape.Bounded.above_of_treeAt`), and what is written outside the square is leaves in a column
next to it (`Landscape.Bounded.leaves_of_outside`).

How the proof goes. Columns are told by two numbers of their chunks, and the square is a condition on these
two; the cells of a chunk lie in the same column of chunks as the chunk itself or, if they wrap around, in one
that is no farther out (`floorDiv_mul_edge_between`, `Square.parent_scale`). Heights are the third number.
Everything that could wrap around there is excluded by one fact: if there is a chunk for the greatest height
at all, this height has not wrapped around (`Landscape.Bounded.toInt_maxHeight`). Below it heights are
compared as integers. A tree is at most seven blocks high (`TreeCell.height`) and begins above a surface that
lies below the bound, which gives the upper end.
-/
namespace BlockWorld.Terrain

open Grid Block

/-! ## The square -/

/-- The square of columns of chunks around the origin, in both directions up to a radius. -/
def Square (radius : Int64) (c : Coord) : Prop :=
  (-radius ≤ c.x ∧ c.x ≤ radius) ∧ -radius ≤ c.z ∧ c.z ≤ radius

instance (radius : Int64) (c : Coord) : Decidable (Square radius c) :=
  inferInstanceAs (Decidable ((_ ∧ _) ∧ _ ∧ _))

variable {g : Landscape} {r : Int64} {c p : Coord} {id : BlockId}

theorem mem_spawnChunks :
    c ∈ spawnChunks g r ↔ Square r c ∧ 0 ≤ c.y ∧ c.y ≤ floorDiv g.maxHeight edge := by
  simp only [spawnChunks, List.mem_flatMap, List.mem_map, mem_span, Square]
  constructor
  · rintro ⟨x, hx, z, hz, y, hy, rfl⟩
    exact ⟨⟨hx, hz⟩, hy⟩
  · rintro ⟨⟨hx, hz⟩, hy⟩
    exact ⟨c.x, hx, c.z, hz, c.y, hy, rfl⟩

/-- A position in a column of the square, up to the top of the highest chunks, lies in one of the
chunks around the origin. -/
theorem parent_mem_spawnChunks (hp : Square r p.parent) (hbottom : 0 ≤ p.y)
    (htop : p.y.toInt < 16 * ((floorDiv g.maxHeight edge).toInt + 1)) :
    p.parent ∈ spawnChunks g r := by
  refine mem_spawnChunks.mpr ⟨hp, ?_⟩
  show 0 ≤ floorDiv p.y edge ∧ floorDiv p.y edge ≤ _
  simp only [Int64.le_iff_toInt_le, toInt_floorDiv_edge, Int64.toInt_zero] at *
  omega

theorem nodup_spawnChunks (g : Landscape) (r : Int64) : (spawnChunks g r).Nodup := by
  rw [spawnChunks, List.nodup_flatMap]
  refine ⟨fun x _ => ?_, (nodup_span _ _).imp fun hne c hc hc' => ?_⟩
  · rw [List.nodup_flatMap]
    refine ⟨fun z _ => ?_, (nodup_span _ _).imp fun hne c hc hc' => ?_⟩
    · exact (nodup_span _ _).map fun y y' h => congrArg Coord.y h
    · obtain ⟨y, -, rfl⟩ := List.mem_map.mp hc
      obtain ⟨y', -, he⟩ := List.mem_map.mp hc'
      exact hne (congrArg Coord.z he).symm
  · obtain ⟨z, -, hc⟩ := List.mem_flatMap.mp hc
    obtain ⟨z', -, hc'⟩ := List.mem_flatMap.mp hc'
    obtain ⟨y, -, rfl⟩ := List.mem_map.mp hc
    obtain ⟨y', -, he⟩ := List.mem_map.mp hc'
    exact hne (congrArg Coord.x he).symm

/-- The least integer is no radius: it has no negative. -/
theorem toInt_neg_radius (hr : r ≠ Int64.minValue) : (-r).toInt = -r.toInt := by
  have hlo := Int64.le_toInt r
  have hhi := Int64.toInt_lt r
  have hne : r.toInt ≠ -9223372036854775808 := fun h => hr (Int64.toInt_inj.mp h)
  rw [Int64.toInt_neg]
  exact Int.bmod_eq_of_le (by omega) (by omega)

/-- A smaller radius gives a smaller square. -/
theorem Square.mono {r' : Int64} (hr' : r' ≠ Int64.minValue) (hle : r' ≤ r) (h : Square r' c) :
    Square r c := by
  obtain ⟨⟨hxl, hxh⟩, hzl, hzh⟩ := h
  have hneg := toInt_neg_radius hr'
  have hneg' : (-r).toInt ≤ (-r').toInt := by
    rw [Int64.le_iff_toInt_le] at hle hxl hxh
    have hlo := Int64.le_toInt r'
    rw [toInt_neg_radius (r := r), hneg]
    · omega
    · rintro rfl
      rw [Int64.toInt_minValue] at hle
      omega
  simp only [Square, Int64.le_iff_toInt_le] at *
  omega

/-- If a column of cubes lies within a radius, so does the column that its cells are in. -/
theorem floorDiv_mul_edge_between {a : Int64} (hr : r ≠ Int64.minValue) (hlo : -r ≤ a)
    (hhi : a ≤ r) :
    -r ≤ floorDiv (a * edge) edge ∧ floorDiv (a * edge) edge ≤ r := by
  by_cases hnear : -576460752303423488 ≤ a.toInt ∧ a.toInt < 576460752303423488
  · rw [floorDiv_mul_edge hnear.1 hnear.2]
    exact ⟨hlo, hhi⟩
  · -- So far out the cells wrap around, and then the radius covers all cells there are.
    obtain ⟨k, hk, hklo, hkhi⟩ := toInt_mul_edge a
    simp only [Int64.le_iff_toInt_le, toInt_neg_radius hr, toInt_floorDiv_edge, hk] at *
    omega

/-- The cells of a chunk of the square lie in the square. -/
theorem Square.parent_scale (hr : r ≠ Int64.minValue) (h : Square r c) :
    Square r (c.scale edge).parent :=
  ⟨floorDiv_mul_edge_between hr h.1.1 h.1.2, floorDiv_mul_edge_between hr h.2.1 h.2.2⟩

namespace Landscape

/-- The columns of a chunk of the square lie in the square, at whatever height. -/
theorem square_surface (hr : r ≠ Int64.minValue) (h : Square r c) {i : Nat} (hi : i < 256)
    (y : Int64) : Square r (⟨(g.surface c i).x, y, (g.surface c i).z⟩ : Coord).parent := by
  have hbetween : ∀ n : Fin 16, 0 ≤ Int64.ofNat n.val ∧ Int64.ofNat n.val < edge := by decide
  have hx := hbetween ⟨i / 16, by omega⟩
  have hz := hbetween ⟨i % 16, by omega⟩
  have hcell := h.parent_scale hr
  rw [Square, Coord.parent, Coord.floorDiv, Coord.map] at hcell ⊢
  simp only [surface, Coord.scale, Coord.map] at hcell ⊢
  rw [(floorDiv_mul_edge_add c.x hx.1 hx.2).1, (floorDiv_mul_edge_add c.z hz.1 hz.2).1]
  exact hcell

theorem GroundAt.square (hr : r ≠ Int64.minValue) (hc : Square r c) (h : g.GroundAt c p id) :
    Square r p.parent := by
  rw [h.parent_eq]
  exact hc.parent_scale hr

/-! ## The ground -/

/-- The block of the land at a position, trees left out. -/
def land (g : Landscape) (q : Coord) : BlockId := g.blockAt q.y (g.height q.x q.z) (g.biome q.x q.z)

/-- A chunk writes the land at all its positions, except air and what lies below the bottom. -/
theorem groundAt_parent (hy : 0 ≤ p.y) (hsolid : g.land p ≠ air) :
    g.GroundAt p.parent p (g.land p) := by
  have hx : ((p.place.x.val * 16 + p.place.z.val) / 16) = p.place.x.val := by omega
  have hz : ((p.place.x.val * 16 + p.place.z.val) % 16) = p.place.z.val := by omega
  have hcell := p.scale_parent_add_place
  refine ⟨p.place.x.val * 16 + p.place.z.val, by omega, ?_⟩
  simp only [surface, columnWrites, offsets, List.mem_filterMap, List.mem_map, List.mem_range, hx,
    hz]
  refine ⟨Int64.ofNat p.place.y.val, ⟨p.place.y.val, p.place.y.isLt, rfl⟩, ?_⟩
  have hcx : (p.parent.scale edge).x + Int64.ofNat p.place.x.val = p.x := congrArg Coord.x hcell
  have hcy : p.parent.y * edge + Int64.ofNat p.place.y.val = p.y := congrArg Coord.y hcell
  have hcz : (p.parent.scale edge).z + Int64.ofNat p.place.z.val = p.z := congrArg Coord.z hcell
  rw [hcx, hcy, hcz]
  exact if_neg (not_or.mpr ⟨Int64.not_lt.mpr hy, hsolid⟩)

theorem land_bottom (hy : p.y = 0) : g.land p = bedrock := by
  unfold land blockAt
  rw [if_pos hy]

theorem land_water (htop : 0 < g.height p.x p.z) (habove : g.height p.x p.z < p.y)
    (hwater : p.y ≤ g.waterLevel) : g.land p = water := by
  have hbottom : p.y ≠ 0 := by
    intro h
    rw [h] at habove
    exact Int64.lt_irrefl (Int64.lt_trans htop habove)
  unfold land blockAt
  rw [if_neg hbottom, if_pos habove, if_pos hwater]

/-- Where there is land, it is the bottom or does not lie above both the surface and the water. -/
theorem le_of_land_ne_air (hsolid : g.land p ≠ air) :
    p.y = 0 ∨ p.y ≤ g.height p.x p.z ∨ p.y ≤ g.waterLevel := by
  by_contra h
  simp only [not_or, Int64.not_le] at h
  exact hsolid (blockAt_eq_air _ h.1 h.2.1 h.2.2)

end Landscape

/-! ## Trees -/

/-- All cells of a tree lie in its column, except for leaves in the columns next to it. -/
theorem TreeCell.column {base : Coord} {extra : Fin 3} (h : TreeCell base extra p id) :
    (p.x = base.x ∧ p.z = base.z) ∨ id = leaves
      ∧ ∃ f : Face, f.offset.y = 0 ∧ p = ⟨base.x, p.y, base.z⟩ + f.offset := by
  have hbeside (y : Int64) (f : Face) (hf : f.offset.y = 0) :
      base + ⟨0, y, 0⟩ + f.offset
        = ⟨base.x, (base + ⟨0, y, 0⟩ + f.offset).y, base.z⟩ + f.offset := by
    show (⟨base.x + 0 + f.offset.x, base.y + y + f.offset.y, base.z + 0 + f.offset.z⟩ : Coord)
      = ⟨base.x + f.offset.x, base.y + y + f.offset.y + f.offset.y, base.z + f.offset.z⟩
    simp only [hf, Int64.add_zero]
  cases h with
  | trunk i hi => exact .inl ⟨Int64.add_zero _, Int64.add_zero _⟩
  | top => exact .inl ⟨Int64.add_zero _, Int64.add_zero _⟩
  | side f hf =>
    cases f with
    | negY => exact absurd rfl hf
    | posY =>
      left
      show base.x + 0 + 0 = base.x ∧ base.z + 0 + 0 = base.z
      simp only [Int64.add_zero, and_self]
    | negX => exact .inr ⟨rfl, .negX, rfl, hbeside _ _ rfl⟩
    | posX => exact .inr ⟨rfl, .posX, rfl, hbeside _ _ rfl⟩
    | negZ => exact .inr ⟨rfl, .negZ, rfl, hbeside _ _ rfl⟩
    | posZ => exact .inr ⟨rfl, .posZ, rfl, hbeside _ _ rfl⟩

/-- A tree is at most seven blocks high, if nothing wraps around. -/
theorem TreeCell.height {base : Coord} {extra : Fin 3} (h : TreeCell base extra p id)
    (hroom : base.y.toInt + 6 < 9223372036854775808) :
    base.y.toInt ≤ p.y.toInt ∧ p.y.toInt ≤ base.y.toInt + 6 := by
  have hup (n : Nat) (hn : n ≤ 6) : (base.y + Int64.ofNat n).toInt = base.y.toInt + n :=
    toInt_add_ofNat (by omega)
  cases h with
  | trunk i hi =>
    have hy := hup i (by omega)
    show _ ≤ (base.y + Int64.ofNat i).toInt ∧ (base.y + Int64.ofNat i).toInt ≤ _
    omega
  | top =>
    have hy := hup (3 + extra.val) (by omega)
    show _ ≤ (base.y + Int64.ofNat (3 + extra.val)).toInt
      ∧ (base.y + Int64.ofNat (3 + extra.val)).toInt ≤ _
    omega
  | side f hf =>
    have hy := hup (3 + extra.val) (by omega)
    show _ ≤ (base.y + Int64.ofNat (3 + extra.val) + f.offset.y).toInt
      ∧ (base.y + Int64.ofNat (3 + extra.val) + f.offset.y).toInt ≤ _
    obtain hflat | hup' : f.offset.y = 0 ∨ f.offset.y = Int64.ofNat 1 := by
      cases f with
      | negY => exact absurd rfl hf
      | posY => exact .inr rfl
      | _ => exact .inl rfl
    · rw [hflat, Int64.add_zero]
      omega
    · rw [hup', toInt_add_ofNat (by omega)]
      omega

namespace Landscape

/-- The surface of the land lies above the bottom, and neither the surface nor the water lies above
the bound that the settings give. -/
structure Bounded (g : Landscape) : Prop where
  one_le : ∀ x z, 1 ≤ g.height x z
  height_le : ∀ x z, g.height x z ≤ g.baseHeight + g.amplitude
  water_le : g.waterLevel ≤ g.baseHeight + g.amplitude

theorem Bounded.toInt_height (hg : g.Bounded) (x z : Int64) :
    1 ≤ (g.height x z).toInt ∧ (g.height x z).toInt ≤ (g.baseHeight + g.amplitude).toInt :=
  ⟨Int64.le_iff_toInt_le.mp (hg.one_le x z), Int64.le_iff_toInt_le.mp (hg.height_le x z)⟩

theorem Bounded.toInt_surface (hg : g.Bounded) (c : Coord) (i : Nat) :
    1 ≤ (g.surface c i).y.toInt
      ∧ (g.surface c i).y.toInt ≤ (g.baseHeight + g.amplitude).toInt :=
  hg.toInt_height (g.surface c i).x (g.surface c i).z

/-- There is a chunk for the greatest height only if the greatest height has not wrapped around. -/
theorem Bounded.toInt_maxHeight (hg : g.Bounded) (htop : 0 ≤ floorDiv g.maxHeight edge) :
    g.maxHeight.toInt = (g.baseHeight + g.amplitude).toInt + 7 := by
  have hheight := hg.toInt_height 0 0
  have hlt := (g.baseHeight + g.amplitude).toInt_lt
  rw [Int64.le_iff_toInt_le, toInt_floorDiv_edge, Int64.toInt_zero] at htop
  have hsum : g.maxHeight.toInt
      = ((g.baseHeight + g.amplitude).toInt + 7).bmod 18446744073709551616 := by
    rw [maxHeight, Int64.toInt_add, Int64.toInt_add, Int.bmod_add_bmod, Int.add_assoc]
    rfl
  rw [Int.bmod_def] at hsum
  omega

/-- The ground and the water lie below the top of the highest chunks. -/
theorem Bounded.below_top (hg : g.Bounded) (htop : 0 ≤ floorDiv g.maxHeight edge)
    (hlow : p.y ≤ g.waterLevel ∨ p.y ≤ 1) :
    p.y.toInt < 16 * ((floorDiv g.maxHeight edge).toInt + 1) := by
  have hmax := hg.toInt_maxHeight htop
  have hheight := hg.toInt_height 0 0
  have hwater := hg.water_le
  have hquotient := toInt_floorDiv_edge g.maxHeight
  simp only [Int64.le_iff_toInt_le, Int64.toInt_one] at hwater hlow
  omega

/-- The chunk of the greatest height is the highest one that blocks are written to. -/
theorem parent_le_of_le_maxHeight (hle : p.y ≤ g.maxHeight) :
    p.parent.y ≤ floorDiv g.maxHeight edge := by
  show floorDiv p.y edge ≤ _
  simp only [Int64.le_iff_toInt_le, toInt_floorDiv_edge] at *
  omega

/-- What a tree of a chunk can reach: it begins above the surface of one of the chunk's columns,
where that does not lie under water. -/
theorem Bounded.treeAt (hg : g.Bounded) (htop : 0 ≤ floorDiv g.maxHeight edge)
    (h : g.TreeAt c p id) :
    ∃ i < 256, g.waterLevel ≤ (g.surface c i).y ∧ (g.surface c i).y.toInt < p.y.toInt
      ∧ p.y.toInt ≤ (g.surface c i).y.toInt + 7
      ∧ ((p.x = (g.surface c i).x ∧ p.z = (g.surface c i).z) ∨ id = leaves
        ∧ ∃ f : Face, f.offset.y = 0
          ∧ p = ⟨(g.surface c i).x, p.y, (g.surface c i).z⟩ + f.offset) := by
  obtain ⟨base, extra, ⟨i, hi, hgrow, -, rfl⟩, hcell⟩ := h
  simp only [mayGrow, Bool.and_eq_true, decide_eq_true_eq] at hgrow
  have hmax := hg.toInt_maxHeight htop
  have hlt := g.maxHeight.toInt_lt
  have hsurface := hg.toInt_surface c i
  have hbase : (g.surface c i + ⟨0, 1, 0⟩).y.toInt = (g.surface c i).y.toInt + 1 :=
    toInt_add_ofNat (n := 1) (by omega)
  have hheight := hcell.height (by omega)
  have hcolumn := hcell.column
  have hx : (g.surface c i + ⟨0, 1, 0⟩).x = (g.surface c i).x := Int64.add_zero _
  have hz : (g.surface c i + ⟨0, 1, 0⟩).z = (g.surface c i).z := Int64.add_zero _
  rw [hx, hz] at hcolumn
  exact ⟨i, hi, hgrow.1, by omega, by omega, hcolumn⟩

/-- Trees begin above the ground and the water. -/
theorem Bounded.above_of_treeAt (hg : g.Bounded) (htop : 0 ≤ floorDiv g.maxHeight edge)
    (h : g.TreeAt c p id) : g.waterLevel < p.y ∧ 1 < p.y := by
  obtain ⟨i, -, hwater, habove, -⟩ := hg.treeAt htop h
  have hsurface := hg.toInt_surface c i
  simp only [Int64.le_iff_toInt_le, Int64.lt_iff_toInt_lt, Int64.toInt_one] at hwater ⊢
  omega

/-- Nothing is written below the bottom or above the greatest height. -/
theorem Bounded.height_of_mem (hg : g.Bounded) (htop : 0 ≤ floorDiv g.maxHeight edge)
    (h : (p, id) ∈ g.chunkWrites c) : 0 ≤ p.y ∧ p.y ≤ g.maxHeight := by
  have hmax := hg.toInt_maxHeight htop
  rw [Int64.le_iff_toInt_le, Int64.le_iff_toInt_le, Int64.toInt_zero]
  obtain hground | htree := mem_chunkWrites.mp h
  · obtain ⟨hpos, hsolid, rfl⟩ := hground.eq_blockAt
    have hheight := hg.toInt_height p.x p.z
    have hwater := hg.water_le
    have hland := le_of_land_ne_air hsolid
    simp only [Int64.le_iff_toInt_le, ← Int64.toInt_inj, Int64.toInt_zero] at hpos hwater hland
    omega
  · obtain ⟨i, -, -, habove, hbelow, -⟩ := hg.treeAt htop htree
    have hsurface := hg.toInt_surface c i
    omega

/-- Low down there is the land and nothing else. -/
theorem Bounded.eq_land_of_low (hg : g.Bounded) (htop : 0 ≤ floorDiv g.maxHeight edge)
    (h : (p, id) ∈ g.chunkWrites c) (hlow : p.y ≤ g.waterLevel ∨ p.y ≤ 1) : id = g.land p := by
  obtain hground | htree := mem_chunkWrites.mp h
  · exact hground.eq_blockAt.2.2
  · obtain ⟨hwater, hone⟩ := hg.above_of_treeAt htop htree
    obtain hle | hle := hlow
    · exact absurd hle (Int64.not_le.mpr hwater)
    · exact absurd hle (Int64.not_le.mpr hone)

/-- What a chunk of the square writes outside the square is leaves, in a column next to it. -/
theorem Bounded.leaves_of_outside (hg : g.Bounded) (hr : r ≠ Int64.minValue)
    (hc : c ∈ spawnChunks g r) (h : (p, id) ∈ g.chunkWrites c) (hout : ¬ Square r p.parent) :
    id = leaves
      ∧ ∃ (n : Coord) (f : Face), Square r n.parent ∧ f.offset.y = 0 ∧ p = n + f.offset := by
  obtain ⟨hsquare, hbottom, htop⟩ := mem_spawnChunks.mp hc
  obtain hground | htree := mem_chunkWrites.mp h
  · exact absurd (hground.square hr hsquare) hout
  · obtain ⟨i, hi, -, -, -, ⟨hx, hz⟩ | ⟨hid, f, hf, hp⟩⟩ :=
      hg.treeAt (Int64.le_trans hbottom htop) htree
    · have hin := square_surface (g := g) hr hsquare hi p.y
      rw [← hx, ← hz] at hin
      exact absurd hin hout
    · exact ⟨hid, _, f, square_surface hr hsquare hi p.y, hf, hp⟩

end Landscape

end BlockWorld.Terrain
