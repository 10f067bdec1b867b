import BlockWorld.Proofs.Terrain.Spawn
import BlockWorld.Proofs.World.Generating
import BlockWorld.Proofs.World.Savable
import BlockWorld.Terrain.Generator
/-!
How far a world reaches.

A world whose megachunks are among a few coordinates that fit into headers can be saved, and their number is
bounded by the length of the list (`Within.savable`, `Within.megachunkCount_le`).

Whatever is done to a world, a megachunk is only added where a block is put or a chunk is filled. So the way
to such a list is to look at the positions that are written. For the chunks above the origin this does not
depend on the heights of the land: the ground of a chunk lies in the chunk, a tree only stands on a surface
that lies in it, and trees are low. All of it lies in four megachunks (`home_of_mem_chunkWrites`), and
therefore so does a new world when the chunks around its origin have been filled (`Within.generateSpawn_home`).
-/
namespace BlockWorld.World

open Grid Block Terrain

variable {cs : List Coord} {w w' : World}

/-! ## Worlds of some megachunks -/

/-- A world all of whose megachunks are at some coordinates, which are also those that they carry. -/
def Within (cs : List Coord) (w : World) : Prop := ∀ c k, w.label c = some k → k = c ∧ c ∈ cs

theorem within_of_megachunkCount (cs : List Coord) (h : w.megachunkCount = 0) : w.Within cs := by
  intro c k hk
  rw [← length_coords, List.length_eq_zero_iff] at h
  have hc : c ∈ w.coords := by
    rw [mem_coords_iff_label, hk]
    rfl
  rw [h] at hc
  cases hc

theorem Within.of_label (h : w.Within cs) (hlabel : w'.label = w.label) : w'.Within cs := by
  intro c k hk
  rw [hlabel] at hk
  exact h c k hk

theorem label_forgetEvents (w : World) : w.forgetEvents.label = w.label := label_of_megachunks rfl

theorem Within.of_claim (h : w.Within cs) {m : Coord} (hm : m ∈ cs) (hlabel : w'.label = claim w.label m) :
    w'.Within cs := by
  intro c k hk
  rw [hlabel, claim] at hk
  split at hk
  · rename_i hc
    obtain rfl := Option.some.inj hk
    refine ⟨?_, hc ▸ hm⟩
    cases hlabel : w.label c with
    | none => rfl
    | some k => exact (h c k hlabel).1
  · exact h c k hk

theorem Within.savable (h : w.Within cs) (hcs : ∀ c ∈ cs, c.InRange) : w.Savable := by
  refine savable_iff.mpr fun c k hk => ?_
  obtain ⟨rfl, hc⟩ := h c k hk
  exact (Megachunk.encodeHeader_ok_iff (hcs k hc).negatable).mpr (hcs k hc)

theorem Within.megachunkCount_le (h : w.Within cs) : w.megachunkCount ≤ cs.length := by
  rw [← length_coords]
  refine ((coords_nodup w).subperm fun c hc => ?_).length_le
  obtain ⟨k, hk⟩ := Option.isSome_iff_exists.mp ((mem_coords_iff_label w c).mp hc)
  exact (h c k hk).2

/-! ## Filling chunks -/

theorem label_markGenerated (w : World) (c : Coord) : (w.markGenerated c).label = claim w.label c.parent := by
  rw [← label_ensureChunk]
  exact label_of_megachunks rfl

theorem Within.foldl_setBlock (h : w.Within cs) {writes : List Write}
    (hwrites : ∀ e ∈ writes, e.1.parent.parent ∈ cs) :
    (writes.foldl (fun w (p, id) => w.setBlock p id) w).Within cs := by
  induction writes generalizing w with
  | nil => exact h
  | cons e writes ih =>
    obtain ⟨p, id⟩ := e
    rw [List.foldl_cons]
    exact ih (h.of_claim (hwrites (p, id) List.mem_cons_self) (label_setBlock w p id)) fun e he =>
      hwrites e (List.mem_cons_of_mem _ he)

theorem Within.generateChunk (h : w.Within cs) {g : Landscape} {c : Coord} (hc : c.parent ∈ cs)
    (hwrites : ∀ e ∈ g.chunkWrites c, e.1.parent.parent ∈ cs) :
    (Terrain.generateChunk .world g c w).1.Within cs := by
  rw [generateChunk_world]
  split
  · exact h
  · exact (h.foldl_setBlock hwrites).of_claim hc (label_markGenerated _ c)

theorem Within.generateSpawn (h : w.Within cs) {g : Landscape} {radius : Int64}
    (hchunks : ∀ c ∈ spawnChunks g radius,
      c.parent ∈ cs ∧ ∀ e ∈ g.chunkWrites c, e.1.parent.parent ∈ cs) :
    (Terrain.generateSpawn .world g radius w).target.Within cs := by
  rw [Terrain.generateSpawn, generateChunks_world]
  generalize spawnChunks g radius = chunks at hchunks
  induction chunks generalizing w with
  | nil => exact h
  | cons c chunks ih =>
    obtain ⟨hc, hwrites⟩ := hchunks c List.mem_cons_self
    exact ih (h.generateChunk hc hwrites) fun c' hc' => hchunks c' (List.mem_cons_of_mem c hc')

/-! ## Above the origin -/

/-- The megachunks around the lower end of the column at the origin. -/
def home : List Coord := [⟨-1, 0, -1⟩, ⟨-1, 0, 0⟩, ⟨0, 0, -1⟩, ⟨0, 0, 0⟩]

theorem mem_home {p : Coord} (hx : floorDiv (floorDiv p.x edge) edge ∈ [-1, 0])
    (hy : floorDiv (floorDiv p.y edge) edge = 0) (hz : floorDiv (floorDiv p.z edge) edge ∈ [-1, 0]) :
    p.parent.parent ∈ home := by
  have hp : p.parent.parent = ⟨floorDiv (floorDiv p.x edge) edge, floorDiv (floorDiv p.y edge) edge,
    floorDiv (floorDiv p.z edge) edge⟩ := rfl
  rw [hp, hy]
  rcases List.mem_pair.mp hx with hx | hx <;> rcases List.mem_pair.mp hz with hz | hz <;> rw [hx, hz] <;> decide

section Origin

variable {g : Landscape} {c p : Coord} {id : BlockId}

/-- A chunk in the column at the origin, from the bottom up to a height that trees do not reach beyond its
megachunk. -/
def AtOrigin (c : Coord) : Prop := c.x = 0 ∧ c.z = 0 ∧ 0 ≤ c.y ∧ c.y ≤ 14

theorem home_of_treeAt (hc : AtOrigin c) (h : g.TreeAt c p id) : p.parent.parent ∈ home := by
  obtain ⟨base, extra, ⟨i, hi, hgrow, -, rfl⟩, hcell⟩ := h
  obtain ⟨hx, hz, hbottom, htop⟩ := hc
  have hside : ∀ (n : Fin 16) (f : Face),
      floorDiv (floorDiv (0 * edge + Int64.ofNat n.val + 0 + f.offset.x) edge) edge ∈ [-1, 0]
        ∧ floorDiv (floorDiv (0 * edge + Int64.ofNat n.val + 0 + f.offset.z) edge) edge ∈ [-1, 0] := by
    intro n f
    cases f <;> revert n <;> decide
  obtain ⟨f, hpx, hpz⟩ := hcell.reach
  refine mem_home ?_ ?_ ?_
  · rw [hpx]
    change floorDiv (floorDiv (c.x * edge + Int64.ofNat (i / 16) + 0 + f.offset.x) edge) edge ∈ _
    rw [hx]
    exact (hside ⟨i / 16, by omega⟩ f).1
  · simp only [Landscape.mayGrow, Bool.and_eq_true, decide_eq_true_eq] at hgrow
    obtain ⟨-, hsurface⟩ := hgrow
    rw [← Int64.toInt_inj, toInt_floorDiv_edge] at hsurface
    simp only [Int64.le_iff_toInt_le, Int64.toInt_zero] at hbottom htop
    rw [show (14 : Int64).toInt = 14 from rfl] at htop
    have hbase : (g.surface c i + ⟨0, 1, 0⟩).y.toInt = (g.surface c i).y.toInt + 1 :=
      toInt_add_ofNat (n := 1) (by omega)
    have hheight := hcell.height (by omega)
    rw [← Int64.toInt_inj, toInt_floorDiv_edge, toInt_floorDiv_edge, Int64.toInt_zero]
    omega
  · rw [hpz]
    change floorDiv (floorDiv (c.z * edge + Int64.ofNat (i % 16) + 0 + f.offset.z) edge) edge ∈ _
    rw [hz]
    exact (hside ⟨i % 16, by omega⟩ f).2

theorem AtOrigin.home (hc : AtOrigin c) : c.parent ∈ home ∧ (c.scale edge).parent.parent ∈ home := by
  have hall : ∀ n : Fin 15, (⟨0, Int64.ofNat n.val, 0⟩ : Coord).parent ∈ World.home
      ∧ ((⟨0, Int64.ofNat n.val, 0⟩ : Coord).scale edge).parent.parent ∈ World.home := by decide
  obtain ⟨x, y, z⟩ := c
  obtain ⟨rfl, rfl, hbottom, htop⟩ := hc
  simp only [Int64.le_iff_toInt_le, Int64.toInt_zero] at hbottom htop
  rw [show (14 : Int64).toInt = 14 from rfl] at htop
  have hy : y = Int64.ofNat y.toInt.toNat := by
    rw [← Int64.toInt_inj, Int64.toInt_ofNat_of_lt (by omega), Int.toNat_of_nonneg hbottom]
  rw [hy]
  exact hall ⟨y.toInt.toNat, by omega⟩

/-- What a chunk above the origin writes lies in these megachunks. -/
theorem home_of_mem_chunkWrites (hc : AtOrigin c) (h : (p, id) ∈ g.chunkWrites c) : p.parent.parent ∈ home := by
  obtain hground | htree := Landscape.mem_chunkWrites.mp h
  · rw [hground.parent_eq]
    exact hc.home.2
  · exact home_of_treeAt hc htree

end Origin

/-- The land of a seed around the origin. -/
theorem Within.generateSpawn_home (h : w.Within home) (seed : Int64) :
    (Terrain.generateSpawn .world (Generator.ofSeed seed).landscape 0 w).target.Within home := by
  refine h.generateSpawn fun c hc => ?_
  obtain ⟨⟨⟨hleft, hright⟩, hfront, hback⟩, hbottom, htop⟩ := mem_spawnChunks.mp hc
  have horigin : AtOrigin c := by
    refine ⟨Int64.le_antisymm hright hleft, Int64.le_antisymm hback hfront, hbottom, ?_⟩
    exact Int64.le_trans htop (by change floorDiv 47 edge ≤ 14; decide)
  exact ⟨horigin.home.1, fun e he => home_of_mem_chunkWrites horigin he⟩

end BlockWorld.World
