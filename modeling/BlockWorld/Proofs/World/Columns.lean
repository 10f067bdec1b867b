import BlockWorld.Proofs.World.GenerationOrder
import BlockWorld.Proofs.World.Spawning
/-!
The shape of the land around the origin. A world without chunks is filled around the origin, from a
landscape that keeps below its own bounds. A position then has a block if and only if one of the
chunks writes to it, and it has the block of one of these writes (`kind?_generateSpawn`). A position
of the square is written by its own chunk, so that it holds the land or a part of a tree; and chunks
are made only where something is written (`isSome_chunk?_generateSpawn`).

How the proof goes. Which chunks are there is followed through writing (`isSome_chunk?_setBlock`) and filling
(`isSome_chunk?_generateChunk`), and which blocks are there is the outcome of the last write to each position
(`kind?_generateSpawn`). Together with what a landscape writes and where, there are three regions. Low in the
square only the land is written, by the chunk of the position itself (`kind?_generateSpawn_low`). Elsewhere in
the square the land may be replaced by a tree (`kind?_generateSpawn_square`). Outside of it there is nothing
but leaves in the columns next to it. `run_new_generateSpawn_columns` says all of this of every world without
chunks that has come about by moves.
-/
namespace BlockWorld

open Grid Block Terrain

namespace World

variable {w : World}

/-! ## Chunks that come into being -/

section Present

variable (ho : w.Owned)
include ho

theorem isSome_chunk?_modifySlot {c : Coord} {h : Nat} (hh : w.handle? c = some h)
    (f : ChunkData → ChunkData) (c' : Coord) :
    ((w.modifySlot h f).chunk? c').isSome = (w.chunk? c').isSome := by
  rw [chunk?_modifySlot ho hh]
  split
  · rename_i hc
    rw [hc, Option.isSome_map]
  · rfl

theorem isSome_chunk?_ensureChunk (c c' : Coord) :
    ((w.ensureChunk c).2.chunk? c').isSome = (decide (c' = c) || (w.chunk? c').isSome) := by
  rw [chunk?_ensureChunk ho]
  by_cases hc : c' = c <;> simp [hc]

/-- A chunk that is reached for and changed is there afterwards, and no other is made. -/
theorem isSome_chunk?_reach_change (c : Coord) (f : ChunkData → ChunkData) (c' : Coord) :
    (((w.ensureChunk c).2.modifySlot (w.ensureChunk c).1 f).chunk? c').isSome
      = (decide (c' = c) || (w.chunk? c').isSome) := by
  rw [isSome_chunk?_modifySlot (ho.ensureChunk c) (w.handle?_ensureChunk c),
    isSome_chunk?_ensureChunk ho]

theorem isSome_chunk?_refresh (p c : Coord) :
    ((w.refresh p).chunk? c).isSome = (w.chunk? c).isSome := by
  unfold refresh
  induction surroundings p generalizing w with
  | nil => rfl
  | cons q qs ih =>
    rw [List.foldl_cons, ih ((edits_forgetFaces w q).owned ho), forgetFaces]
    cases hh : w.handle? q.parent with
    | none => rfl
    | some h => exact isSome_chunk?_modifySlot ho hh _ c

theorem isSome_chunk?_setBlock (p : Coord) (id : BlockId) (c : Coord) :
    ((w.setBlock p id).chunk? c).isSome = (decide (c = p.parent) || (w.chunk? c).isSome) := by
  let f : ChunkData → ChunkData := fun d =>
    { d with chunk := d.chunk.setBlock p.place id, lastTouched := w.tick }
  let v := (w.ensureChunk p.parent).2.modifySlot (w.ensureChunk p.parent).1 f
  have hv : v.Owned := (edits_reach_change w p.parent f).owned ho
  have hcounted : v.SameStorage { v with gauges := v.gauges.blockWritten } := ⟨rfl, rfl⟩
  have hset : w.setBlock p id = refresh { v with gauges := v.gauges.blockWritten } p := rfl
  rw [hset, isSome_chunk?_refresh (hcounted.owned hv), hcounted.chunk?_eq]
  exact isSome_chunk?_reach_change ho p.parent f c

theorem isSome_chunk?_foldl_setBlock {writes : List Write} {c : Coord}
    (h : ((writes.foldl (fun w (p, id) => w.setBlock p id) w).chunk? c).isSome = true) :
    (w.chunk? c).isSome = true ∨ ∃ e ∈ writes, c = e.1.parent := by
  induction writes generalizing w with
  | nil => exact .inl h
  | cons e writes ih =>
    obtain ⟨p, id⟩ := e
    rw [List.foldl_cons] at h
    obtain hfirst | ⟨e, he, hc⟩ := ih ((edits_setBlock w p id).owned ho) h
    · rw [isSome_chunk?_setBlock ho, Bool.or_eq_true, decide_eq_true_eq] at hfirst
      obtain hc | hbefore := hfirst
      · exact .inr ⟨(p, id), List.mem_cons_self, hc⟩
      · exact .inl hbefore
    · exact .inr ⟨e, List.mem_cons_of_mem _ he, hc⟩

/-- A chunk that is there after one was filled was there before, or it is the one, or a block was
written to it. -/
theorem isSome_chunk?_generateChunk {g : Landscape} {c c' : Coord}
    (h : ((generateChunk .world g c w).1.chunk? c').isSome = true) :
    (w.chunk? c').isSome = true ∨ c' = c ∨ ∃ e ∈ g.chunkWrites c, c' = e.1.parent := by
  rw [generateChunk_world] at h
  split at h
  · exact .inl h
  · rw [markGenerated, isSome_chunk?_reach_change (owned_chunkWrites g ho c), Bool.or_eq_true,
      decide_eq_true_eq] at h
    obtain hc | hwritten := h
    · exact .inr (.inl hc)
    · obtain hbefore | hnew := isSome_chunk?_foldl_setBlock ho hwritten
      · exact .inl hbefore
      · exact .inr (.inr hnew)

theorem isSome_chunk?_generateSpawn {g : Landscape} {r : Int64} {c' : Coord}
    (h : ((generateSpawn .world g r w).target.chunk? c').isSome = true) :
    (w.chunk? c').isSome = true
      ∨ ∃ c ∈ spawnChunks g r, c' = c ∨ ∃ e ∈ g.chunkWrites c, c' = e.1.parent := by
  rw [generateSpawn, generateChunks_world] at h
  generalize spawnChunks g r = chunks at h ⊢
  induction chunks generalizing w with
  | nil => exact .inl h
  | cons first rest ih =>
    rw [List.foldl_cons] at h
    obtain hfirst | ⟨c, hc, hnew⟩ := ih ((edits_generateChunk g first w).owned ho) h
    · obtain hbefore | hnew := isSome_chunk?_generateChunk ho hfirst
      · exact .inl hbefore
      · exact .inr ⟨first, List.mem_cons_self, hnew⟩
    · exact .inr ⟨c, List.mem_cons_of_mem first hc, hnew⟩

end Present

/-! ## Blocks around the origin -/

/-- In a world without chunks, a position holds what one of the chunks around the origin has written
there, and nothing if none of them has. -/
theorem kind?_generateSpawn (ho : w.Owned) (hempty : ∀ c, w.chunk? c = none) (g : Landscape)
    (r : Int64) (q : Coord) :
    ((generateSpawn .world g r w).target.kind? q = none
        ∧ ∀ c ∈ spawnChunks g r, ∀ id, (q, id) ∉ g.chunkWrites c)
      ∨ ∃ c ∈ spawnChunks g r, ∃ id, (q, id) ∈ g.chunkWrites c
        ∧ (generateSpawn .world g r w).target.kind? q = some id := by
  have hnew : ∀ c ∈ spawnChunks g r, w.isGenerated c = false := fun c _ => by
    rw [isGenerated_eq, hempty]
    rfl
  have hair : w.kind? q = none := by
    rw [kind?, block?_eq_chunk?, hempty]
    rfl
  rw [generateSpawn, generateChunks_world,
    kind?_foldl_generateChunk ho (nodup_spawnChunks g r) hnew, hair, Option.or_none]
  cases hfind : (spawnChunks g r).reverse.findSome? (g.lastWrite? · q) with
  | none =>
    rw [List.findSome?_eq_none_iff] at hfind
    exact .inl ⟨rfl, fun c hc =>
      Landscape.not_mem_chunkWrites_of_lastWrite? (hfind c (List.mem_reverse.mpr hc))⟩
  | some id =>
    obtain ⟨c, hc, hlast⟩ := List.exists_of_findSome?_eq_some hfind
    exact .inr ⟨c, List.mem_reverse.mp hc, id, Landscape.mem_chunkWrites_of_lastWrite? hlast, rfl⟩

section Columns

variable {g : Landscape} {r : Int64} {q : Coord}
  (ho : w.Owned) (hempty : ∀ c, w.chunk? c = none)
include ho hempty

/-- A block that stands somewhere has been written there. -/
theorem exists_write_of_kind?_generateSpawn {kind : BlockId}
    (hkind : (generateSpawn .world g r w).target.kind? q = some kind) :
    ∃ c ∈ spawnChunks g r, 0 ≤ floorDiv g.maxHeight edge ∧ (q, kind) ∈ g.chunkWrites c := by
  obtain ⟨hnone, -⟩ | ⟨c, hc, kind', hmem, hkind'⟩ := kind?_generateSpawn ho hempty g r q
  · rw [hnone] at hkind
    cases hkind
  · obtain rfl := Option.some.inj (hkind'.symm.trans hkind)
    obtain ⟨-, hbottom, htop⟩ := mem_spawnChunks.mp hc
    exact ⟨c, hc, Int64.le_trans hbottom htop, hmem⟩

/-- Where no block is left in the square, there is no land. -/
theorem land_eq_air_of_kind?_generateSpawn (hq : q.parent ∈ spawnChunks g r)
    (hnone : (generateSpawn .world g r w).target.kind? q = none) (hy : 0 ≤ q.y) :
    g.land q = air := by
  by_contra hsolid
  obtain ⟨-, hwrites⟩ | ⟨c, -, kind, -, hkind⟩ := kind?_generateSpawn ho hempty g r q
  · exact hwrites q.parent hq (g.land q)
      (Landscape.mem_chunkWrites.mpr (.inl (Landscape.groundAt_parent hy hsolid)))
  · rw [hnone] at hkind
    cases hkind

/-- A position of the square holds the land, a log or leaves. -/
theorem kind?_generateSpawn_square (hq : q.parent ∈ spawnChunks g r) (hy : 0 ≤ q.y) :
    ((generateSpawn .world g r w).target.kind? q).getD air = g.land q
      ∨ (generateSpawn .world g r w).target.kind? q = some log
      ∨ (generateSpawn .world g r w).target.kind? q = some leaves := by
  cases hkind : (generateSpawn .world g r w).target.kind? q with
  | none => exact .inl (land_eq_air_of_kind?_generateSpawn ho hempty hq hkind hy).symm
  | some kind =>
    obtain ⟨c, -, -, hmem⟩ := exists_write_of_kind?_generateSpawn ho hempty hkind
    obtain hground | htree := Landscape.mem_chunkWrites.mp hmem
    · exact .inl hground.eq_blockAt.2.2
    · obtain rfl | rfl := htree.kind
      · exact .inr (.inl rfl)
      · exact .inr (.inr rfl)

/-- Low down it holds the land. -/
theorem kind?_generateSpawn_low (hg : g.Bounded) (hq : q.parent ∈ spawnChunks g r) (hy : 0 ≤ q.y)
    (hlow : q.y ≤ g.waterLevel ∨ q.y ≤ 1) :
    ((generateSpawn .world g r w).target.kind? q).getD air = g.land q := by
  cases hkind : (generateSpawn .world g r w).target.kind? q with
  | none => exact (land_eq_air_of_kind?_generateSpawn ho hempty hq hkind hy).symm
  | some kind =>
    obtain ⟨c, -, htop, hmem⟩ := exists_write_of_kind?_generateSpawn ho hempty hkind
    exact hg.eq_land_of_low htop hmem hlow

/-- If the land low down is no air, there is a block. -/
theorem kind?_generateSpawn_low_eq_some (hg : g.Bounded) (htop : 0 ≤ floorDiv g.maxHeight edge)
    (hq : Square r q.parent) (hy : 0 ≤ q.y) (hlow : q.y ≤ g.waterLevel ∨ q.y ≤ 1)
    (hsolid : g.land q ≠ air) :
    (generateSpawn .world g r w).target.kind? q = some (g.land q) := by
  have hland := kind?_generateSpawn_low ho hempty hg
    (parent_mem_spawnChunks hq hy (hg.below_top htop hlow)) hy hlow
  cases hkind : (generateSpawn .world g r w).target.kind? q with
  | none =>
    rw [hkind] at hland
    exact absurd hland.symm hsolid
  | some kind =>
    rw [hkind] at hland
    exact congrArg some hland

/-- No chunk is made above the highest ones. -/
theorem chunk?_generateSpawn_le (hg : g.Bounded) {c : Coord} {d : ChunkData}
    (hd : (generateSpawn .world g r w).target.chunk? c = some d) :
    c.y ≤ floorDiv g.maxHeight edge := by
  obtain hbefore | ⟨c', hc', rfl | ⟨⟨p, kind⟩, hmem, rfl⟩⟩ :=
    isSome_chunk?_generateSpawn ho (Option.isSome_of_eq_some hd)
  · rw [hempty] at hbefore
    cases hbefore
  · exact (mem_spawnChunks.mp hc').2.2
  · obtain ⟨-, hbottom, htop⟩ := mem_spawnChunks.mp hc'
    have hheight := hg.height_of_mem (Int64.le_trans hbottom htop) hmem
    exact Landscape.parent_le_of_le_maxHeight hheight.2

end Columns

/-- A world without chunks is filled around the origin, from a landscape that keeps below its own
bounds. Each position in the columns of the square, up to the top of the highest chunks, holds the
land there, a log or leaves. Up to the level of the water, and up to the height one, it holds the
land and nothing else. (If the greatest height wraps around, there are no such positions, since no
chunk is filled.) So bedrock lies at the bottom of all columns, and the water between a surface and
its own level is all there. No block lies above the greatest height or below the bottom, and no
chunk above the highest ones is made. Outside the square there are no blocks but leaves, in columns
next to it. -/
theorem run_new_generateSpawn_columns (seed : Int64) (id : String) (createdAt : Data.Timestamp)
    (compression : String) (moves : List Move) (g : Landscape) (r : Int64)
    (hempty : ∀ c, (Move.run moves (.new seed id createdAt compression)).chunk? c = none)
    (hg : g.Bounded) (hr : r ≠ Int64.minValue) :
    let w := (generateSpawn .world g r
      (Move.run moves (.new seed id createdAt compression))).target
    let top := floorDiv g.maxHeight edge
    (∀ q : Coord, Square r q.parent → 0 ≤ q.y → q.y.toInt < 16 * (top.toInt + 1) →
        ((w.kind? q).getD air = g.blockAt q.y (g.height q.x q.z) (g.biome q.x q.z)
            ∨ w.kind? q = some log ∨ w.kind? q = some leaves)
          ∧ (q.y ≤ g.waterLevel ∨ q.y ≤ 1 →
            (w.kind? q).getD air = g.blockAt q.y (g.height q.x q.z) (g.biome q.x q.z)))
      ∧ (0 ≤ top → ∀ q : Coord, Square r q.parent →
        (q.y = 0 → w.kind? q = some bedrock)
          ∧ (g.height q.x q.z < q.y → q.y ≤ g.waterLevel → w.kind? q = some water))
      ∧ (∀ q kind, w.kind? q = some kind → 0 ≤ q.y ∧ q.y ≤ g.maxHeight)
      ∧ (∀ c d, w.chunk? c = some d → c.y ≤ top)
      ∧ ∀ q kind, ¬ Square r q.parent → w.kind? q = some kind →
        kind = leaves
          ∧ ∃ (n : Coord) (f : Face), Square r n.parent ∧ f.offset.y = 0 ∧ q = n + f.offset := by
  intro w top
  have ho : (Move.run moves (.new seed id createdAt compression)).Owned :=
    (owned_new seed id createdAt compression).run moves
  refine ⟨fun q hq hy hlt => ⟨?_, ?_⟩, fun htop q hq => ⟨fun hy => ?_, fun habove hwater => ?_⟩,
    fun q kind hkind => ?_, fun c d hd => chunk?_generateSpawn_le ho hempty hg hd,
    fun q kind hout hkind => ?_⟩
  · exact kind?_generateSpawn_square ho hempty (parent_mem_spawnChunks hq hy hlt) hy
  · exact kind?_generateSpawn_low ho hempty hg (parent_mem_spawnChunks hq hy hlt) hy
  · have hland : g.land q = bedrock := Landscape.land_bottom hy
    rw [← hland]
    refine kind?_generateSpawn_low_eq_some ho hempty hg htop hq ?_ (.inr ?_) ?_
    · exact hy ▸ Int64.le_refl 0
    · exact hy ▸ (by decide : (0 : Int64) ≤ 1)
    · rw [hland]
      decide
  · have hsurface : 0 < g.height q.x q.z := Int64.lt_of_lt_of_le (by decide) (hg.one_le q.x q.z)
    have hland : g.land q = water := Landscape.land_water hsurface habove hwater
    rw [← hland]
    refine kind?_generateSpawn_low_eq_some ho hempty hg htop hq ?_ (.inl hwater) ?_
    · exact Int64.le_of_lt (Int64.lt_trans hsurface habove)
    · rw [hland]
      decide
  · obtain ⟨c, hc, htop, hmem⟩ := exists_write_of_kind?_generateSpawn ho hempty hkind
    exact hg.height_of_mem htop hmem
  · obtain ⟨c, hc, -, hmem⟩ := exists_write_of_kind?_generateSpawn ho hempty hkind
    exact hg.leaves_of_outside hr hc hmem hout

/-! ## A shore -/

/-- A beach under water beside a wooded bank. -/
def shore : Landscape where
  height x _ := if x < 0 then 2 else 9
  biome x _ := if x < 0 then .desert else .forest
  trunks _ := Array.replicate 256 (some (Fin.last 2))
  baseHeight := 8
  amplitude := 1
  waterLevel := 6

theorem bounded_shore : shore.Bounded := by
  have hheight (x z : Int64) : 1 ≤ shore.height x z ∧ shore.height x z ≤ 8 + 1 := by
    simp only [shore]
    split <;> decide
  exact ⟨fun x z => (hheight x z).1, fun x z => (hheight x z).2, by decide⟩

/-- In a world that has been emptied, water stands over the beach down to the sand, with bedrock
below it. Behind the last column of the square there can be leaves of the bank and nothing else. -/
theorem run_new_generateSpawn_columns_shore :
    let moves : List Move := [.act (.setBlock ⟨0, 3, 0⟩ stone), .act .reset]
    let w := (generateSpawn .world shore 1 (Move.run moves (.new 1 "" .zero ""))).target
    (∀ c, (Move.run moves (.new 1 "" .zero "")).chunk? c = none) ∧ shore.Bounded
      ∧ (1 : Int64) ≠ Int64.minValue
      ∧ w.kind? ⟨-1, 6, 20⟩ = some water ∧ w.kind? ⟨-1, 3, 20⟩ = some water
      ∧ (w.kind? ⟨-1, 2, 20⟩).getD air = sand ∧ w.kind? ⟨-1, 0, 20⟩ = some bedrock
      ∧ ∀ kind, w.kind? ⟨32, 15, 0⟩ = some kind → kind = leaves := by
  intro moves w
  have hempty : ∀ c, (Move.run moves (.new 1 "" .zero "")).chunk? c = none := chunk?_reset _
  have hr : (1 : Int64) ≠ Int64.minValue := by decide
  obtain ⟨hsquare, hlow, -, -, hout⟩ :=
    run_new_generateSpawn_columns 1 "" .zero "" moves shore 1 hempty bounded_shore hr
  have hcolumn := hlow (by decide)
  refine ⟨hempty, bounded_shore, hr, ?_, ?_, ?_, ?_, fun kind hkind => ?_⟩
  · exact (hcolumn ⟨-1, 6, 20⟩ (by decide)).2 (by decide) (by decide)
  · exact (hcolumn ⟨-1, 3, 20⟩ (by decide)).2 (by decide) (by decide)
  · exact (hsquare ⟨-1, 2, 20⟩ (by decide) (by decide) (by decide)).2 (.inl (by decide))
  · exact (hcolumn ⟨-1, 0, 20⟩ (by decide)).1 rfl
  · exact (hout ⟨32, 15, 0⟩ kind (by decide) hkind).1

end World

end BlockWorld
