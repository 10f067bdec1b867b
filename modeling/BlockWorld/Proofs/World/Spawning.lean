import Mathlib
import BlockWorld.Proofs.Terrain.Spawn
import BlockWorld.Proofs.World.Generating
/-!
Filling the chunks around the origin. Each chunk is looked at before it is filled, in a world that
the chunks before it have changed. What they change are blocks, also of chunks whose turn comes
later, and their own marks, but never the mark of another chunk (`World.isGenerated_generateChunk`).
So the chunks that are filled are those of the square that had no mark at the beginning, each once
(`World.filled_generateChunks`), and a second time there is nothing to do.

How the proof goes. `filled_generateChunks` is an induction on the chunks, for a world in any state. Filling
the first of them leaves the marks of the others alone, and since no chunk is listed twice the others are to
be looked at with the marks from the beginning. The square lists each of its chunks once
(`nodup_spawnChunks`), and a smaller square is part of a larger one (`mem_spawnChunks_mono`), so that filling
a smaller one after a larger one has nothing to do either.
-/
namespace BlockWorld

open Grid Block Terrain

namespace World

variable {w : World} {g : Landscape}

/-- Of several chunks those are filled that had not been filled before. -/
theorem filled_generateChunks (ho : w.Owned) {cs : List Coord} (hcs : cs.Nodup)
    (filled : List Coord) :
    (generateChunks .world g filled cs w).filled
      = filled.reverse ++ cs.filter fun c => !w.isGenerated c := by
  induction cs generalizing w filled with
  | nil =>
    rw [List.filter_nil, List.append_nil]
    rfl
  | cons c rest ih =>
    obtain ⟨hc, hrest⟩ := List.nodup_cons.mp hcs
    -- Filling the first chunk leaves the marks of the others as they are.
    have hkept : (rest.filter fun c' => !(generateChunk .world g c w).1.isGenerated c')
        = rest.filter fun c' => !w.isGenerated c' := by
      refine List.filter_congr fun c' hc' => ?_
      have hne : c' ≠ c := fun h => hc (h ▸ hc')
      rw [isGenerated_generateChunk g ho, decide_eq_false hne, Bool.false_or]
    rw [generateChunks_cons, ih ((edits_generateChunk g c w).owned ho) hrest, hkept,
      List.filter_cons]
    show (if w.isGenerated c = true then filled else c :: filled).reverse ++ _ = _
    cases w.isGenerated c <;> simp

theorem filled_generateSpawn (ho : w.Owned) (r : Int64) :
    (generateSpawn .world g r w).filled = (spawnChunks g r).filter fun c => !w.isGenerated c := by
  rw [generateSpawn, filled_generateChunks ho (nodup_spawnChunks g r)]
  rfl

/-- The chunks of a smaller square are among those of a larger one. -/
theorem mem_spawnChunks_mono {r r' : Int64} (hr' : r' ≠ Int64.minValue) (hle : r' ≤ r) {c : Coord}
    (hc : c ∈ spawnChunks g r') : c ∈ spawnChunks g r := by
  obtain ⟨hsquare, hheight⟩ := mem_spawnChunks.mp hc
  exact mem_spawnChunks.mpr ⟨hsquare.mono hr' hle, hheight⟩

/-- Filling the chunks around the origin always succeeds, for any landscape and in any world. It
counts the chunks of the square that had not been filled before. Afterwards all of the square have
been filled, and no other chunk has gained or lost its mark. Doing it again, with the same or with a
smaller radius, counts none and leaves the world as it is. (The least integer is no radius: it has
no negative.) -/
theorem run_new_generateSpawn_marks (seed : Int64) (id : String) (createdAt : Data.Timestamp)
    (compression : String) (moves : List Move) (g : Landscape) (r : Int64) :
    let w := Move.run moves (.new seed id createdAt compression)
    let spawn : Set Coord := {c | Square r c ∧ 0 ≤ c.y ∧ c.y ≤ floorDiv g.maxHeight edge}
    let f := generateSpawn .world g r w
    f.error = none
      ∧ f.filled.length = {c | c ∈ spawn ∧ w.isGenerated c = false}.ncard
      ∧ (∀ c ∈ spawn, f.target.isGenerated c = true)
      ∧ (∀ c, c ∉ spawn → f.target.isGenerated c = w.isGenerated c)
      ∧ ∀ r' ≤ r, r' ≠ Int64.minValue →
        let again := generateSpawn .world g r' f.target
        again.error = none ∧ again.filled.length = 0 ∧ again.target = f.target := by
  intro w spawn f
  have ho : w.Owned := (owned_new seed id createdAt compression).run moves
  have ho' : f.target.Owned := (edits_generateSpawn g r w).owned ho
  have hspawn (c : Coord) : c ∈ spawnChunks g r ↔ c ∈ spawn := mem_spawnChunks
  refine ⟨generateChunks_error .world g [] _ w, ?_,
    fun c hc => isGenerated_generateSpawn g ho ((hspawn c).mpr hc), fun c hc => ?_,
    fun r' hle hr' => ?_⟩
  · have hset : {c | c ∈ spawn ∧ w.isGenerated c = false} = ↑f.filled.toFinset := by
      ext c
      simp [f, filled_generateSpawn ho, hspawn]
    have hnodup : f.filled.Nodup := by
      rw [filled_generateSpawn ho]
      exact (nodup_spawnChunks g r).filter _
    rw [hset, Set.ncard_coe_finset, List.toFinset_card_of_nodup hnodup]
  · rw [isGenerated_generateSpawn_eq g ho, decide_eq_false (mt (hspawn c).mp hc), Bool.false_or]
  · have hmarked : ∀ c ∈ spawnChunks g r', f.target.isGenerated c = true :=
      fun c hc => isGenerated_generateSpawn g ho (mem_spawnChunks_mono hr' hle hc)
    refine ⟨generateChunks_error .world g [] _ _, ?_, generateSpawn_of_isGenerated g hmarked⟩
    rw [filled_generateSpawn ho', List.length_eq_zero_iff, List.filter_eq_nil_iff]
    intro c hc
    simp [hmarked c hc]

end World

end BlockWorld
