import BlockWorld.Proofs.Grid
import BlockWorld.Terrain.Landscape
/-!
What a landscape writes for a chunk (`Landscape.mem_chunkWrites`). The ground in its columns all lies
in one chunk (`Landscape.GroundAt.parent_eq`): the chunk itself, or the one that its cells wrap around
to if it lies too far out for its blocks to have positions of their own. Its trees are logs and leaves
(`TreeCell`), and they may reach one column over the border (`TreeCell.reach`). Where two chunks
write different blocks to one position, one of the two is leaves (`Landscape.leaves_of_conflict`).

How the proof goes. The list of writes is built by two loops over columns, the ground first and then the
trees, and it is turned into a statement of membership: a write is one of the ground (`Landscape.GroundAt`) or
one of a tree (`Landscape.TreeAt`). What is in the ground at a position depends on the column and the height
and not on the chunk (`Landscape.GroundAt.eq_blockAt`), so two chunks that write to one position agree unless
one of them does so through a tree. Logs stand above the surface in the column of their tree
(`Landscape.TreeAt.above_surface`) and so in no ground; what is left are leaves.
-/
namespace BlockWorld.Terrain

open Grid Block

/-- The cells of a tree and what they hold: the trunk, the top of the crown, and leaves around the
top on all sides but below. -/
inductive TreeCell (base : Coord) (extra : Fin 3) : Coord → BlockId → Prop
  | trunk (i : Nat) (hi : i < 3 + extra.val) :
    TreeCell base extra (base + ⟨0, Int64.ofNat i, 0⟩) log
  | top : TreeCell base extra (base + ⟨0, Int64.ofNat (3 + extra.val), 0⟩) leaves
  | side (f : Face) (hf : f ≠ .negY) :
    TreeCell base extra (base + ⟨0, Int64.ofNat (3 + extra.val), 0⟩ + f.offset) leaves

theorem TreeCell.kind {base p : Coord} {extra : Fin 3} {id : BlockId}
    (h : TreeCell base extra p id) : id = log ∨ id = leaves := by
  cases h with
  | trunk i hi => exact .inl rfl
  | top => exact .inr rfl
  | side f hf => exact .inr rfl

/-- A tree stays in its column or reaches one column to a side. -/
theorem TreeCell.reach {base p : Coord} {extra : Fin 3} {id : BlockId}
    (h : TreeCell base extra p id) :
    ∃ f : Face, p.x = base.x + f.offset.x ∧ p.z = base.z + f.offset.z := by
  cases h with
  | trunk i hi => exact ⟨.posY, rfl, rfl⟩
  | top => exact ⟨.posY, rfl, rfl⟩
  | side f hf =>
    refine ⟨f, ?_, ?_⟩
    · show base.x + 0 + f.offset.x = _
      rw [Int64.add_zero]
    · show base.z + 0 + f.offset.z = _
      rw [Int64.add_zero]

namespace Landscape

theorem mem_treeWrites {base p : Coord} {extra : Fin 3} {id : BlockId} :
    (p, id) ∈ treeWrites base extra ↔ TreeCell base extra p id := by
  simp only [treeWrites, List.mem_append, List.mem_cons, List.mem_map, List.mem_range,
    List.mem_filter, Prod.mk.injEq, decide_eq_true_eq]
  constructor
  · rintro (⟨i, hi, rfl, rfl⟩ | ⟨rfl, rfl⟩ | ⟨f, ⟨-, hf⟩, rfl, rfl⟩)
    · exact .trunk i hi
    · exact .top
    · exact .side f hf
  · intro h
    cases h with
    | trunk i hi => exact .inl ⟨i, hi, rfl, rfl⟩
    | top => exact .inr (.inl ⟨rfl, rfl⟩)
    | side f hf => exact .inr (.inr ⟨f, ⟨by cases f <;> decide, hf⟩, rfl, rfl⟩)

/-- The column with a given number, at the height of its surface. -/
def surface (g : Landscape) (c : Coord) (i : Nat) : Coord :=
  let x := (c.scale edge).x + Int64.ofNat (i / 16)
  let z := (c.scale edge).z + Int64.ofNat (i % 16)
  ⟨x, g.height x z, z⟩

/-- A chunk plants a tree in one of its columns, on top of the surface. -/
def Plants (g : Landscape) (c base : Coord) (extra : Fin 3) : Prop :=
  ∃ i < 256, g.mayGrow c (g.surface c i).y = true ∧ (g.trunks c).getD i none = some extra
    ∧ base = g.surface c i + ⟨0, 1, 0⟩

/-- A position of a tree of a chunk, and the block there. -/
def TreeAt (g : Landscape) (c p : Coord) (id : BlockId) : Prop :=
  ∃ base extra, g.Plants c base extra ∧ TreeCell base extra p id

/-- A position of the ground or the water in a column of a chunk, and the block there. -/
def GroundAt (g : Landscape) (c p : Coord) (id : BlockId) : Prop :=
  ∃ i < 256, (p, id) ∈ g.columnWrites c (g.surface c i).x (g.surface c i).z

theorem mem_chunkWrites {g : Landscape} {c p : Coord} {id : BlockId} :
    (p, id) ∈ g.chunkWrites c ↔ g.GroundAt c p id ∨ g.TreeAt c p id := by
  have hbase : ∀ i, (⟨(g.surface c i).x, (g.surface c i).y + 1, (g.surface c i).z⟩ : Coord)
      = g.surface c i + ⟨0, 1, 0⟩ := by
    intro i
    show _ = (⟨_ + 0, _ + 1, _ + 0⟩ : Coord)
    simp
  simp only [chunkWrites, columns, List.mem_flatMap, List.mem_map, List.mem_range,
    List.mem_append]
  constructor
  · rintro ⟨_, ⟨i, hi, rfl⟩, hcolumn | htree⟩
    · exact .inl ⟨i, hi, hcolumn⟩
    · right
      split at htree
      · rename_i hgrow
        split at htree
        · rename_i extra hextra
          exact ⟨_, extra, ⟨i, hi, hgrow, hextra, hbase i⟩, mem_treeWrites.mp htree⟩
        · cases htree
      · cases htree
  · rintro (⟨i, hi, hcolumn⟩ | ⟨base, extra, ⟨i, hi, hgrow, hextra, rfl⟩, htree⟩)
    · exact ⟨_, ⟨i, hi, rfl⟩, .inl hcolumn⟩
    · refine ⟨_, ⟨i, hi, rfl⟩, .inr ?_⟩
      rw [← hbase, ← mem_treeWrites] at htree
      simp only [surface] at hgrow htree
      simp only [hgrow, hextra, if_true, htree]

/-- All cells of the columns of a chunk lie in one chunk. -/
theorem GroundAt.parent_eq {g : Landscape} {c p : Coord} {id : BlockId} (h : g.GroundAt c p id) :
    p.parent = (c.scale edge).parent := by
  obtain ⟨i, hi, h⟩ := h
  simp only [columnWrites, offsets, List.mem_filterMap, List.mem_map, List.mem_range] at h
  obtain ⟨_, ⟨n, hn, rfl⟩, hwrite⟩ := h
  split at hwrite
  · cases hwrite
  · obtain ⟨rfl, -⟩ := Prod.mk.inj (Option.some.inj hwrite)
    let l : Local := ⟨⟨i / 16, by omega⟩, ⟨n, hn⟩, ⟨i % 16, by omega⟩⟩
    have hcell : (⟨(g.surface c i).x, c.y * edge + Int64.ofNat n, (g.surface c i).z⟩ : Coord)
        = c.scale edge + l.toCoord := rfl
    rw [hcell]
    exact c.parent_scale_add l.isLocal_toCoord

theorem blockAt_eq_air {g : Landscape} {y top : Int64} (biome : Biome) (hbottom : y ≠ 0)
    (habove : top < y) (hdry : g.waterLevel < y) : g.blockAt y top biome = air := by
  unfold blockAt
  rw [if_neg hbottom, if_pos habove, if_neg (Int64.not_le.mpr hdry)]

/-- What the ground has at a position depends on the column and the height only, not on the chunk
that writes it. -/
theorem GroundAt.eq_blockAt {g : Landscape} {c p : Coord} {id : BlockId} (h : g.GroundAt c p id) :
    0 ≤ p.y ∧ id ≠ air ∧ id = g.blockAt p.y (g.height p.x p.z) (g.biome p.x p.z) := by
  obtain ⟨i, -, h⟩ := h
  simp only [columnWrites, List.mem_filterMap] at h
  obtain ⟨dy, -, hwrite⟩ := h
  split at hwrite
  · cases hwrite
  · rename_i hsolid
    rw [not_or, Int64.not_lt] at hsolid
    obtain ⟨rfl, rfl⟩ := Prod.mk.inj (Option.some.inj hwrite)
    exact ⟨hsolid.1, hsolid.2, rfl⟩

theorem TreeAt.kind {g : Landscape} {c p : Coord} {id : BlockId} (h : g.TreeAt c p id) :
    id = log ∨ id = leaves := by
  obtain ⟨base, extra, -, htree⟩ := h
  exact htree.kind

/-- A log stands in the column of its tree, above the surface, which is not under water. -/
theorem TreeAt.above_surface {g : Landscape} {c p : Coord} (h : g.TreeAt c p log) :
    g.waterLevel ≤ g.height p.x p.z ∧ ∃ n < 5, p.y = g.height p.x p.z + 1 + Int64.ofNat n := by
  obtain ⟨base, extra, ⟨i, -, hgrow, -, rfl⟩, htree⟩ := h
  generalize hid : log = id at htree
  cases htree with
  | trunk n hn =>
    have hx : (g.surface c i + ⟨0, 1, 0⟩ + ⟨0, Int64.ofNat n, 0⟩).x = (g.surface c i).x := by
      show _ + 0 + 0 = _
      simp
    have hz : (g.surface c i + ⟨0, 1, 0⟩ + ⟨0, Int64.ofNat n, 0⟩).z = (g.surface c i).z := by
      show _ + 0 + 0 = _
      simp
    simp only [mayGrow, Bool.and_eq_true, decide_eq_true_eq] at hgrow
    rw [hx, hz]
    exact ⟨hgrow.1, n, by omega, rfl⟩
  | top => exact absurd hid (by decide)
  | side f hf => exact absurd hid (by decide)

/-- Where the land lies above the bottom, no log stands in the ground or in the water. -/
theorem TreeAt.not_groundAt {g : Landscape} (hheight : ∀ x z, 1 ≤ g.height x z) {c c' p : Coord}
    {id : BlockId} (h : g.TreeAt c p log) : ¬ g.GroundAt c' p id := by
  intro hground
  obtain ⟨hwater, n, hn, hy⟩ := h.above_surface
  obtain ⟨hpos, hsolid, hid⟩ := hground.eq_blockAt
  have htop := hheight p.x p.z
  generalize g.height p.x p.z = top at hwater hy htop hid
  have hsum : p.y.toInt = top.toInt + 1 + n := by
    -- A height that wraps around is negative, and the ground ends above that.
    have hn' : (Int64.ofNat n).toInt = n := Int64.toInt_ofNat_of_lt (by omega)
    have hlimit := top.toInt_lt
    rw [Int64.le_iff_toInt_le, Int64.toInt_one] at htop
    rw [Int64.le_iff_toInt_le, Int64.toInt_zero] at hpos
    rw [hy, Int64.toInt_add, Int64.toInt_add, Int64.toInt_one, hn', Int.bmod_add_bmod,
      Int.bmod_def] at hpos ⊢
    omega
  have habove : top < p.y := Int64.lt_iff_toInt_lt.mpr (by omega)
  have hbottom : p.y ≠ 0 := by
    rintro hzero
    rw [hzero] at habove
    exact Int64.lt_irrefl (Int64.lt_trans (Int64.lt_of_lt_of_le (by decide) htop) habove)
  exact hsolid (hid.trans (blockAt_eq_air _ hbottom habove (Int64.lt_of_le_of_lt hwater habove)))

/-- Air is never written. -/
theorem ne_air_of_mem_chunkWrites {g : Landscape} {c p : Coord} {id : BlockId}
    (h : (p, id) ∈ g.chunkWrites c) : id ≠ air := by
  obtain hground | htree := mem_chunkWrites.mp h
  · exact hground.eq_blockAt.2.1
  · obtain rfl | rfl := htree.kind <;> decide

/-- Two chunks that write different blocks to one position do so through a tree that grows from one
of them, and what that one writes there is leaves. -/
theorem leaves_of_conflict {g : Landscape} (hheight : ∀ x z, 1 ≤ g.height x z) {c c' p : Coord}
    {id id' : BlockId} (h : (p, id) ∈ g.chunkWrites c) (h' : (p, id') ∈ g.chunkWrites c')
    (hne : id ≠ id') : id = leaves ∧ g.TreeAt c p leaves ∨ id' = leaves ∧ g.TreeAt c' p leaves := by
  rcases mem_chunkWrites.mp h with hground | htree <;>
    rcases mem_chunkWrites.mp h' with hground' | htree'
  · exact absurd (hground.eq_blockAt.2.2.trans hground'.eq_blockAt.2.2.symm) hne
  · rcases htree'.kind with rfl | rfl
    · exact absurd hground (htree'.not_groundAt hheight)
    · exact .inr ⟨rfl, htree'⟩
  · rcases htree.kind with rfl | rfl
    · exact absurd hground' (htree.not_groundAt hheight)
    · exact .inl ⟨rfl, htree⟩
  · rcases htree.kind with rfl | rfl
    · rcases htree'.kind with rfl | rfl
      · exact absurd rfl hne
      · exact .inr ⟨rfl, htree'⟩
    · exact .inl ⟨rfl, htree⟩

end Landscape

end BlockWorld.Terrain
