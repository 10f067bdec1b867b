import BlockWorld.Proofs.Terrain.Writes
import BlockWorld.Proofs.World.Blocks
import BlockWorld.Proofs.World.Invariant
/-!
What filling a chunk does to the blocks that are there. A chunk that has been filled is left alone.
Filling another one writes its own cells and its trees, and the trees grow across the border: at a
position that no write names there is afterwards what was there before, and at any other one the
block of a write (`content_foldl_setBlock`). So chunks that were filled earlier keep their blocks
except where a tree of a neighbour stands (`content_generateChunk`).

How the proof goes. Marks and blocks are followed apart. A write changes no mark (`isGenerated_setBlock`), and
marking changes no block; so after filling a chunk its mark is set and all others are as before
(`isGenerated_generateChunk`). For the blocks there is a fold of writes (`content_foldl_setBlock`, by
induction from the last write). What the writes are is known from the landscape: the ground of the chunk
itself, and trees that reach one column further at most.

The counterexample is a flat forest with a tree in every column (`flatForest`): filling the chunk beside one
that has been filled puts leaves into it (`generateChunk_overgrows_filled`).
-/
namespace BlockWorld

open Grid Block Terrain

namespace World

variable {w : World}

/-! ## Marks -/

theorem isGenerated_new (seed : Int64) (id : String) (createdAt : Data.Timestamp)
    (compression : String) (c : Coord) :
    (new seed id createdAt compression).isGenerated c = false := by
  rw [isGenerated_eq, chunk?_new]
  rfl

section Marks

variable (ho : w.Owned)
include ho

theorem isGenerated_modifySlot {c : Coord} {h : Nat} (hh : w.handle? c = some h)
    {f : ChunkData → ChunkData} (hf : ∀ d, (f d).generated = d.generated) (c' : Coord) :
    (w.modifySlot h f).isGenerated c' = w.isGenerated c' := by
  rw [isGenerated_eq, isGenerated_eq, chunk?_modifySlot ho hh]
  split
  · rename_i hc
    simp [hc, Function.comp_def, hf]
  · rfl

/-- A chunk that is made has not been filled. -/
theorem isGenerated_ensureChunk (c c' : Coord) :
    (w.ensureChunk c).2.isGenerated c' = w.isGenerated c' := by
  rw [isGenerated_eq, isGenerated_eq, chunk?_ensureChunk ho]
  split
  · rename_i hc
    have hmade : ChunkData.fresh.generated = false := rfl
    cases hd : w.chunk? c with
    | none => simp [hc, hd, hmade]
    | some d => simp [hc, hd]
  · rfl

theorem isGenerated_markGenerated (c c' : Coord) :
    (w.markGenerated c).isGenerated c' = (decide (c' = c) || w.isGenerated c') := by
  rw [isGenerated_eq, isGenerated_eq, markGenerated,
    chunk?_modifySlot (ho.ensureChunk c) (w.handle?_ensureChunk c), chunk?_ensureChunk ho,
    chunk?_ensureChunk ho, if_pos rfl]
  by_cases hc : c' = c <;> simp [hc]

theorem isGenerated_refresh (p c : Coord) : (w.refresh p).isGenerated c = w.isGenerated c := by
  unfold refresh
  induction surroundings p generalizing w with
  | nil => rfl
  | cons q qs ih =>
    rw [List.foldl_cons, ih ((edits_forgetFaces w q).owned ho), forgetFaces]
    cases hh : w.handle? q.parent with
    | none => rfl
    | some h =>
      exact isGenerated_modifySlot ho hh
        (f := fun d => { d with chunk := (d.chunk.resetFaces q.place).invalidate }) (fun _ => rfl) c

theorem isGenerated_setBlock (p : Coord) (id : BlockId) (c : Coord) :
    (w.setBlock p id).isGenerated c = w.isGenerated c := by
  let f : ChunkData → ChunkData := fun d =>
    { d with chunk := d.chunk.setBlock p.place id, lastTouched := w.tick }
  let v := (w.ensureChunk p.parent).2.modifySlot (w.ensureChunk p.parent).1 f
  have hreach := ho.ensureChunk p.parent
  have hhandle := w.handle?_ensureChunk p.parent
  have hcounted : v.SameStorage { v with gauges := v.gauges.blockWritten } := ⟨rfl, rfl⟩
  have hset : w.setBlock p id = refresh { v with gauges := v.gauges.blockWritten } p := rfl
  have hv : v.isGenerated c = w.isGenerated c :=
    (isGenerated_modifySlot hreach hhandle (f := f) (fun _ => rfl) c).trans
      (isGenerated_ensureChunk ho p.parent c)
  rw [hset, isGenerated_refresh (hcounted.owned (hreach.modifySlot_of_handle? hhandle f)), ← hv,
    isGenerated_eq, isGenerated_eq, hcounted.chunk?_eq]

theorem isGenerated_damageBlock (r : Registry) (p : Coord) (amount : Float32) (c : Coord) :
    (w.damageBlock r p amount).2.isGenerated c = w.isGenerated c := by
  rw [damageBlock]
  cases strike r (w.block? p) amount with
  | none => rfl
  | broken =>
    have hnoted := sameStorage_note (w.setBlock p air) (.blockBroken p)
    rw [← isGenerated_setBlock ho p air c, isGenerated_eq, isGenerated_eq, hnoted.chunk?_eq]
  | damaged damage =>
    cases hh : w.handle? p.parent with
    | none => rfl
    | some h =>
      dsimp only
      exact isGenerated_modifySlot ho hh (by simp) c

theorem isGenerated_foldl_setBlock (writes : List Write) (c : Coord) :
    (writes.foldl (fun w (p, id) => w.setBlock p id) w).isGenerated c = w.isGenerated c := by
  induction writes generalizing w with
  | nil => rfl
  | cons write writes ih =>
    obtain ⟨p, id⟩ := write
    rw [List.foldl_cons, ih ((edits_setBlock w p id).owned ho), isGenerated_setBlock ho]

end Marks

/-! ## Several writes -/

theorem content_setBlock_self (ho : w.Owned) (p : Coord) (id : BlockId) :
    ((w.setBlock p id).block? p).map Cell.content = if id = air then none else some ⟨id, 0⟩ := by
  rw [block?_setBlock ho, if_pos rfl]
  by_cases hid : id = air <;> simp [Cell.solid?, Cell.isAir, Cell.fresh, Cell.content, hid]

/-- After several writes a position that none of them names holds what it held, and any other
position holds what one of the writes has put there. -/
theorem content_foldl_setBlock (ho : w.Owned) (writes : List Write) (q : Coord) :
    ((∀ id, (q, id) ∉ writes)
        ∧ ((writes.foldl (fun w (p, id) => w.setBlock p id) w).block? q).map Cell.content
          = (w.block? q).map Cell.content)
      ∨ ∃ id, (q, id) ∈ writes
        ∧ ((writes.foldl (fun w (p, id) => w.setBlock p id) w).block? q).map Cell.content
          = if id = air then none else some ⟨id, 0⟩ := by
  induction writes generalizing w with
  | nil => exact .inl ⟨fun _ => List.not_mem_nil, rfl⟩
  | cons write writes ih =>
    obtain ⟨p, id⟩ := write
    rw [List.foldl_cons]
    obtain ⟨hrest, hkept⟩ | ⟨id', hid', hwritten⟩ := ih ((edits_setBlock w p id).owned ho)
    · by_cases hq : q = p
      · -- This is the last write to `q`.
        subst hq
        exact .inr ⟨id, List.mem_cons_self, hkept.trans (content_setBlock_self ho q id)⟩
      · refine .inl ⟨fun id' hmem => ?_, hkept.trans (content_setBlock ho p id hq)⟩
        obtain heq | hmem := List.mem_cons.mp hmem
        · exact hq (Prod.mk.inj heq).1
        · exact hrest id' hmem
    · exact .inr ⟨id', List.mem_cons_of_mem _ hid', hwritten⟩

/-! ## Filling a chunk -/

section Generate

variable (g : Landscape) {c q : Coord}

theorem generateChunk_of_isGenerated (hc : w.isGenerated c = true) :
    (generateChunk .world g c w).1 = w := by
  rw [generateChunk_world, if_pos hc]

theorem owned_chunkWrites (ho : w.Owned) (c : Coord) :
    ((g.chunkWrites c).foldl (fun w (p, id) => w.setBlock p id) w).Owned :=
  (edits_foldl (fun w (p, id) => edits_setBlock w p id) _ w).owned ho

theorem block?_generateChunk (ho : w.Owned) (hc : w.isGenerated c = false) (q : Coord) :
    (generateChunk .world g c w).1.block? q
      = ((g.chunkWrites c).foldl (fun w (p, id) => w.setBlock p id) w).block? q := by
  rw [generateChunk_world, if_neg (by simp [hc])]
  exact block?_markGenerated (owned_chunkWrites g ho c) c q

/-- Afterwards the chunk has been filled, and all those that had been. -/
theorem isGenerated_generateChunk (ho : w.Owned) (c c' : Coord) :
    (generateChunk .world g c w).1.isGenerated c' = (decide (c' = c) || w.isGenerated c') := by
  cases hc : w.isGenerated c with
  | true =>
    rw [generateChunk_of_isGenerated g hc]
    by_cases he : c' = c
    · simp [he, hc]
    · simp [he]
  | false =>
    rw [generateChunk_world, if_neg (by simp [hc]),
      isGenerated_markGenerated (owned_chunkWrites g ho c), isGenerated_foldl_setBlock ho]

theorem isGenerated_foldl_generateChunk (ho : w.Owned) (cs : List Coord) (c : Coord) :
    (cs.foldl (fun w c => (generateChunk .world g c w).1) w).isGenerated c
      = (decide (c ∈ cs) || w.isGenerated c) := by
  induction cs generalizing w with
  | nil => simp
  | cons first rest ih =>
    rw [List.foldl_cons, ih ((edits_generateChunk g first w).owned ho), isGenerated_generateChunk g ho]
    by_cases hc : c = first <;> simp [hc]

theorem isGenerated_generateSpawn_eq (ho : w.Owned) (radius : Int64) (c : Coord) :
    (generateSpawn .world g radius w).target.isGenerated c
      = (decide (c ∈ spawnChunks g radius) || w.isGenerated c) := by
  rw [generateSpawn, generateChunks_world, isGenerated_foldl_generateChunk g ho]

/-- The chunks around the origin are filled afterwards. -/
theorem isGenerated_generateSpawn (ho : w.Owned) {radius : Int64} (hc : c ∈ spawnChunks g radius) :
    (generateSpawn .world g radius w).target.isGenerated c = true := by
  rw [isGenerated_generateSpawn_eq g ho, decide_eq_true hc, Bool.true_or]

/-- Where they have been filled before, nothing is done. -/
theorem generateSpawn_of_isGenerated {radius : Int64}
    (h : ∀ c ∈ spawnChunks g radius, w.isGenerated c = true) :
    (generateSpawn .world g radius w).target = w := by
  rw [generateSpawn, generateChunks_world]
  generalize spawnChunks g radius = chunks at h
  induction chunks with
  | nil => rfl
  | cons first rest ih =>
    rw [List.foldl_cons, generateChunk_of_isGenerated g (h first List.mem_cons_self)]
    exact ih fun c hc => h c (List.mem_cons_of_mem first hc)

/-- A position that is not written to keeps its content; any other one has got a block of the ground
or of a tree. -/
theorem content_generateChunk (ho : w.Owned) (hc : w.isGenerated c = false) (q : Coord) :
    ((∀ kind, ¬ g.TreeAt c q kind ∧ ¬ g.GroundAt c q kind)
        ∧ ((generateChunk .world g c w).1.block? q).map Cell.content
          = (w.block? q).map Cell.content)
      ∨ ∃ kind, (g.TreeAt c q kind ∨ g.GroundAt c q kind)
        ∧ ((generateChunk .world g c w).1.block? q).map Cell.content = some ⟨kind, 0⟩ := by
  rw [block?_generateChunk g ho hc]
  obtain ⟨hnone, hkept⟩ | ⟨kind, hmem, hwritten⟩ := content_foldl_setBlock ho (g.chunkWrites c) q
  · refine .inl ⟨fun kind => ⟨fun htree => ?_, fun hground => ?_⟩, hkept⟩
    · exact hnone kind (Landscape.mem_chunkWrites.mpr (.inr htree))
    · exact hnone kind (Landscape.mem_chunkWrites.mpr (.inl hground))
  · rw [if_neg (Landscape.ne_air_of_mem_chunkWrites hmem)] at hwritten
    exact .inr ⟨kind, (Landscape.mem_chunkWrites.mp hmem).symm, hwritten⟩

end Generate

/-! ## A flat forest -/

/-- Flat land with a tree in every column. -/
def flatForest : Landscape where
  height _ _ := 4
  biome _ _ := .forest
  trunks _ := Array.replicate 256 (some 0)
  baseHeight := 4
  amplitude := 0
  waterLevel := 0

/-- The tree in a last column of the first chunk reaches into the next chunk. -/
theorem treeAt_flatForest : flatForest.TreeAt .origin ⟨16, 8, 0⟩ leaves := by
  have hside : TreeCell ⟨15, 5, 0⟩ 0 ⟨16, 8, 0⟩ leaves := .side .posX (by decide)
  refine ⟨⟨15, 5, 0⟩, 0, ⟨240, by decide, by decide, ?_, by decide⟩, hside⟩
  simp [flatForest]

/-- Trees do not reach further than one column. -/
theorem not_treeAt_flatForest (kind : BlockId) : ¬ flatForest.TreeAt .origin ⟨20, 8, 0⟩ kind := by
  rintro ⟨base, extra, ⟨i, hi, -, -, rfl⟩, htree⟩
  obtain ⟨f, hx, -⟩ := htree.reach
  have hfar : ∀ n : Fin 16, (20 : Int64) ≠ 0 * edge + Int64.ofNat n.val + 0 + f.offset.x := by
    cases f <;> decide
  exact hfar ⟨i / 16, by omega⟩ hx

/-! ## Filled chunks -/

/-- Filling a chunk that has been filled changes nothing. Filling any other leaves every block of
every chunk that was filled before as it was, apart from the faces that it remembers, except where a
tree of the new chunk reaches into the older one: there are its log or its leaves. Ground is written
to an older chunk only if the new one is so far out that its cells wrap around into the older one. -/
theorem run_new_generateChunk_content (seed : Int64) (id : String) (createdAt : Data.Timestamp)
    (compression : String) (moves : List Move) (g : Landscape) (c : Coord) :
    let w := Move.run moves (.new seed id createdAt compression)
    let w' := (generateChunk .world g c w).1
    (∀ c' : Coord, w'.isGenerated c' = (decide (c' = c) || w.isGenerated c'))
      ∧ (w.isGenerated c = true → w' = w)
      ∧ (w.isGenerated c = false → ∀ q : Coord, w.isGenerated q.parent = true →
        ((∀ kind, ¬ g.TreeAt c q kind ∧ ¬ g.GroundAt c q kind)
            ∧ (w'.block? q).map Cell.content = (w.block? q).map Cell.content)
          ∨ (∃ kind, g.TreeAt c q kind ∧ (w'.block? q).map Cell.content = some ⟨kind, 0⟩)
          ∨ ∃ kind, g.GroundAt c q kind ∧ (w'.block? q).map Cell.content = some ⟨kind, 0⟩
            ∧ q.parent = (c.scale edge).parent ∧ (c.scale edge).parent ≠ c) := by
  intro w w'
  have ho : w.Owned := (owned_new seed id createdAt compression).run moves
  refine ⟨isGenerated_generateChunk g ho c, generateChunk_of_isGenerated g, fun hc q hq => ?_⟩
  obtain hkept | ⟨kind, htree | hground, hwritten⟩ := content_generateChunk g ho hc q
  · exact .inl hkept
  · exact .inr (.inl ⟨kind, htree, hwritten⟩)
  · refine .inr (.inr ⟨kind, hground, hwritten, hground.parent_eq, fun hhome => ?_⟩)
    -- Without wrapping around, the ground lies in the chunk that has not been filled.
    rw [hground.parent_eq, hhome, hc] at hq
    cases hq

/-- A stone that stands in an older chunk beside a forest survives. -/
theorem run_new_generateChunk_content_stone :
    let w := Move.run [.act (.setBlock ⟨20, 8, 0⟩ stone), .act (.markGenerated ⟨1, 0, 0⟩)]
      (.new 1 "" .zero "")
    w.isGenerated ⟨1, 0, 0⟩ = true ∧ w.isGenerated .origin = false
      ∧ ((generateChunk .world flatForest .origin w).1.block? ⟨20, 8, 0⟩).map Cell.content
        = some ⟨stone, 0⟩ := by
  obtain ⟨w, hw, hnext, hhere, hstone⟩ : ∃ w,
      Move.run [.act (.setBlock ⟨20, 8, 0⟩ stone), .act (.markGenerated ⟨1, 0, 0⟩)]
        (.new 1 "" .zero "") = w
      ∧ w.isGenerated ⟨1, 0, 0⟩ = true ∧ w.isGenerated .origin = false
      ∧ (w.block? ⟨20, 8, 0⟩).map Cell.content = some ⟨stone, 0⟩ := by
    have hnew := owned_new 1 "" .zero ""
    have hset := (edits_setBlock _ ⟨20, 8, 0⟩ stone).owned hnew
    refine ⟨_, rfl, ?_, ?_, ?_⟩
    · simp [Move.run, Move.apply, Action.apply, isGenerated_markGenerated hset]
    · simp only [Move.run, Move.apply, Action.apply, List.foldl, isGenerated_markGenerated hset,
        isGenerated_setBlock hnew, isGenerated_new]
      decide
    · simp only [Move.run, Move.apply, Action.apply, List.foldl, block?_markGenerated hset,
        content_setBlock_self hnew]
      rfl
  have hcontent := (run_new_generateChunk_content 1 "" .zero ""
    [.act (.setBlock ⟨20, 8, 0⟩ stone), .act (.markGenerated ⟨1, 0, 0⟩)] flatForest .origin).2.2
  rw [hw] at hcontent ⊢
  refine ⟨hnext, hhere, ?_⟩
  obtain ⟨-, hkept⟩ | ⟨kind, htree, -⟩ | ⟨kind, -, -, -, hwrap⟩ :=
    hcontent hhere ⟨20, 8, 0⟩ hnext
  · exact hkept.trans hstone
  · exact absurd htree (not_treeAt_flatForest kind)
  · exact absurd (by decide) hwrap

/-- Leaves grow into a chunk that has been filled, where there was air. -/
theorem generateChunk_overgrows_filled :
    let w := (new 1 "" .zero "").markGenerated ⟨1, 0, 0⟩
    w.isGenerated ⟨1, 0, 0⟩ = true ∧ w.block? ⟨16, 8, 0⟩ = none
      ∧ (generateChunk .world flatForest .origin w).1.block? ⟨16, 8, 0⟩ ≠ none := by
  intro w
  have hnew := owned_new 1 "" .zero ""
  have ho : w.Owned := (edits_markGenerated _ _).owned hnew
  have hhere : w.isGenerated .origin = false := by
    rw [isGenerated_markGenerated hnew, isGenerated_new]
    decide
  refine ⟨by simp [w, isGenerated_markGenerated hnew], by simp [w, block?_markGenerated hnew], ?_⟩
  intro hnone
  obtain ⟨hnot, -⟩ | ⟨kind, -, hgrown⟩ := content_generateChunk flatForest ho hhere ⟨16, 8, 0⟩
  · exact (hnot leaves).1 treeAt_flatForest
  · rw [hnone] at hgrown
    cases hgrown

end World

end BlockWorld
