import BlockWorld.Proofs.Chunk
import BlockWorld.Proofs.World.Edits
/-!
The blocks of a world after each operation, position by position. Reaching for a chunk or marking it
changes no block. Writing a block is seen at its position, where it replaces what was there, and at
the neighbours, which keep their content but forget their faces (`block?_setBlock`). Digging changes
one damage or leaves air.

How the proof goes. Every operation is made of reaching for a chunk, which adds air at most
(`block?_ensureChunk`), and of changing one cell through a handle, which is seen at one position
(`block?_modifySlot`). Forgetting faces is such a change at each of some positions, one after the other
(`block?_foldl_forgetFaces`). A write is a change at its position and then forgetting at the position and its
six neighbours; whether two of these positions lie in one chunk does not matter, since the equations are about
positions. Digging is a write of air, a change of one damage, or nothing (`block?_damageBlock`), and which of
them is known from what the block was and is (`damageBlock_fst`).
-/
namespace BlockWorld

open Grid Block

namespace World

variable {w : World}

/-! ## Reaching for a chunk -/

/-- A chunk that is made holds no block. -/
theorem block?_ensureChunk (ho : w.Owned) (c q : Coord) :
    (w.ensureChunk c).2.block? q = w.block? q := by
  rw [block?_eq_chunk?, block?_eq_chunk?, chunk?_ensureChunk ho]
  split
  · rename_i hq
    have hmade : ChunkData.fresh.chunk = Chunk.empty := rfl
    cases hc : w.chunk? c with
    | none => simp [hq, hc, hmade]
    | some d => simp [hq, hc]
  · rfl

section Change

variable {p : Coord} {h : Nat} {f : ChunkData → ChunkData} {g : Option Cell → Option Cell}

/-- A change of one cell of a chunk is seen at its position only. -/
theorem block?_modifySlot (ho : w.Owned) (hh : w.handle? p.parent = some h)
    (hf : ∀ l, (f (w.arena.slot h)).chunk.block? l
      = if l = p.place then g ((w.arena.slot h).chunk.block? l)
        else (w.arena.slot h).chunk.block? l) (q : Coord) :
    (w.modifySlot h f).block? q = if q = p then g (w.block? p) else w.block? q := by
  rw [block?_eq_chunk?, block?_eq_chunk?, block?_eq_chunk?, chunk?_modifySlot ho hh,
    ho.chunk?_of_handle? hh]
  by_cases hparent : q.parent = p.parent
  · rw [if_pos hparent, Option.map_some, Option.bind_some, Option.bind_some, hf, hparent,
      ho.chunk?_of_handle? hh, Option.bind_some]
    by_cases hplace : q.place = p.place
    · rw [if_pos hplace, if_pos (Coord.eq_of_parent_place hparent hplace), hplace]
    · rw [if_neg hplace, if_neg fun he => hplace (congrArg Coord.place he)]
  · rw [if_neg hparent, if_neg fun he => hparent (congrArg Coord.parent he)]

/-- A change that leaves all cells of a chunk as they are is not seen. -/
theorem block?_modifySlot_same (ho : w.Owned) {c : Coord} (hh : w.handle? c = some h)
    (hf : ∀ d l, (f d).chunk.block? l = d.chunk.block? l) (q : Coord) :
    (w.modifySlot h f).block? q = w.block? q := by
  rw [block?_eq_chunk?, block?_eq_chunk?, chunk?_modifySlot ho hh]
  split
  · rename_i hq
    rw [hq]
    cases w.chunk? c with
    | none => rfl
    | some d => exact hf d q.place
  · rfl

end Change

theorem block?_of_chunk? {w' : World} (hc : ∀ c, w'.chunk? c = w.chunk? c) (q : Coord) :
    w'.block? q = w.block? q := by
  rw [block?_eq_chunk?, block?_eq_chunk?, hc]

theorem SameStorage.chunk?_eq {w w' : World} (hs : w.SameStorage w') (c : Coord) :
    w'.chunk? c = w.chunk? c := by
  rw [chunk?_eq_chunkAt, chunk?_eq_chunkAt, hs.chunkAt_eq]

theorem SameStorage.block?_eq {w w' : World} (hs : w.SameStorage w') (q : Coord) :
    w'.block? q = w.block? q :=
  block?_of_chunk? hs.chunk?_eq q

/-! ## Marks -/

section Marks

variable (ho : w.Owned)
include ho

theorem block?_reach_change (c : Coord) {f : ChunkData → ChunkData}
    (hf : ∀ d l, (f d).chunk.block? l = d.chunk.block? l) (q : Coord) :
    ((w.ensureChunk c).2.modifySlot (w.ensureChunk c).1 f).block? q = w.block? q := by
  rw [block?_modifySlot_same (ho.ensureChunk c) (w.handle?_ensureChunk c) hf,
    block?_ensureChunk ho]

theorem block?_markChunk (c : Coord) (priority : Int64) (q : Coord) :
    (w.markChunk c priority).block? q = w.block? q :=
  block?_reach_change ho c (f := fun d => { d with priority }) (fun _ _ => rfl) q

theorem block?_markGenerated (c q : Coord) : (w.markGenerated c).block? q = w.block? q :=
  block?_reach_change ho c (f := fun d => { d with generated := true }) (fun _ _ => rfl) q

theorem block?_markCached (c q : Coord) : (w.markCached c).block? q = w.block? q := by
  rw [markCached]
  cases hh : w.handle? c with
  | none => rfl
  | some h =>
    exact block?_modifySlot_same ho hh (f := fun d => { d with chunk := d.chunk.markCached })
      (fun _ _ => rfl) q

/-! ## Writing -/

theorem block?_forgetFaces (p q : Coord) :
    (w.forgetFaces p).block? q = if q = p then (w.block? p).map Cell.forget else w.block? q := by
  rw [forgetFaces]
  cases hh : w.handle? p.parent with
  | none =>
    have hnone : w.block? p = none := by
      rw [block?_eq_chunk?, ho.chunk?_eq, hh]
      rfl
    change w.block? q = _
    split
    · rename_i hq
      rw [hq, hnone]
      rfl
    · rfl
  | some h =>
    refine block?_modifySlot ho hh (g := Option.map Cell.forget) (fun l => ?_) q
    refine (Chunk.block?_resetFaces _ p.place l).trans ?_
    split
    · rename_i hl
      rw [hl]
    · rfl

/-- Forgetting faces is seen at the positions where it is done. -/
theorem block?_foldl_forgetFaces (ps : List Coord) (q : Coord) :
    (ps.foldl forgetFaces w).block? q
      = if q ∈ ps then (w.block? q).map Cell.forget else w.block? q := by
  induction ps generalizing w with
  | nil => rfl
  | cons p ps ih =>
    rw [List.foldl_cons, ih ((edits_forgetFaces w p).owned ho), block?_forgetFaces ho]
    by_cases hqp : q = p
    · -- A second time there is nothing left to forget.
      subst hqp
      rw [if_pos rfl, if_pos List.mem_cons_self, Option.map_map]
      split <;> rfl
    · simp only [hqp, if_false, List.mem_cons, false_or]

theorem block?_refresh (p q : Coord) :
    (w.refresh p).block? q
      = if q ∈ surroundings p then (w.block? q).map Cell.forget else w.block? q :=
  block?_foldl_forgetFaces ho (surroundings p) q

/-- A written block replaces what was there. Its neighbours forget their faces. -/
theorem block?_setBlock (p : Coord) (id : BlockId) (q : Coord) :
    (w.setBlock p id).block? q
      = if q = p then (Cell.fresh id).solid?
        else if q ∈ surroundings p then (w.block? q).map Cell.forget else w.block? q := by
  let f : ChunkData → ChunkData := fun d =>
    { d with chunk := d.chunk.setBlock p.place id, lastTouched := w.tick }
  let v := (w.ensureChunk p.parent).2.modifySlot (w.ensureChunk p.parent).1 f
  have hreach := ho.ensureChunk p.parent
  have hhandle := w.handle?_ensureChunk p.parent
  have hv : v.Owned := hreach.modifySlot_of_handle? hhandle f
  have hcounted : v.SameStorage { v with gauges := v.gauges.blockWritten } := ⟨rfl, rfl⟩
  have hwritten : v.block? q = if q = p then (Cell.fresh id).solid? else w.block? q := by
    rw [← block?_ensureChunk ho p.parent q]
    exact block?_modifySlot hreach hhandle (g := fun _ => (Cell.fresh id).solid?)
      (fun l => Chunk.block?_setBlock _ p.place l id) q
  have hset : w.setBlock p id = refresh { v with gauges := v.gauges.blockWritten } p := rfl
  rw [hset, block?_refresh (hcounted.owned hv), hcounted.block?_eq, hwritten]
  by_cases hq : q = p
  · have hforget : (Cell.fresh id).solid?.map Cell.forget = (Cell.fresh id).solid? := by
      unfold Cell.solid?
      split <;> rfl
    simp only [hq, if_true, hforget, ite_self]
  · simp only [hq, if_false]

/-- The content of all other positions stays as it is. -/
theorem content_setBlock (p : Coord) (id : BlockId) {q : Coord} (hq : q ≠ p) :
    ((w.setBlock p id).block? q).map Cell.content = (w.block? q).map Cell.content := by
  rw [block?_setBlock ho, if_neg hq]
  split
  · rw [Option.map_map]
    rfl
  · rfl

/-- A damage that is written into a chunk is seen at its position. -/
theorem block?_writeDamage {p : Coord} {h : Nat} (hh : w.handle? p.parent = some h)
    (damage : Float32) (tick : UInt64) (q : Coord) :
    (w.modifySlot h fun d =>
        { d with chunk := d.chunk.setDamage p.place damage, lastTouched := tick }).block? q
      = if q = p then (w.block? p).map fun b => { b with damage := Chunk.clampDamage damage }
        else w.block? q := by
  refine block?_modifySlot ho hh (g := Option.map _) (fun l => ?_) q
  refine (Chunk.block?_setDamage _ p.place l damage).trans ?_
  split
  · rename_i hl
    rw [hl]
  · rfl

/-- Digging breaks a block, changes its damage or does nothing. -/
theorem block?_damageBlock (r : Registry) (p : Coord) (amount : Float32) :
    (∀ q, (w.damageBlock r p amount).2.block? q = (w.setBlock p air).block? q)
      ∨ ∃ f : Cell → Cell, (∀ b, (f b).kind = b.kind ∧ (f b).faces = b.faces)
        ∧ ∀ q, (w.damageBlock r p amount).2.block? q
          = if q = p then (w.block? p).map f else w.block? q := by
  have hsame : ∃ f : Cell → Cell, (∀ b, (f b).kind = b.kind ∧ (f b).faces = b.faces)
      ∧ ∀ q, w.block? q = if q = p then (w.block? p).map f else w.block? q := by
    refine ⟨fun b => b, fun _ => ⟨rfl, rfl⟩, fun q => ?_⟩
    split
    · rename_i hq
      rw [hq, Option.map_id']
    · rfl
  rw [damageBlock]
  cases strike r (w.block? p) amount with
  | none => exact .inr hsame
  | broken => exact .inl (sameStorage_note (w.setBlock p air) (.blockBroken p)).block?_eq
  | damaged damage =>
    right
    cases hh : w.handle? p.parent with
    | none => simpa only [hh] using hsame
    | some h =>
      exact ⟨fun b => { b with damage := Chunk.clampDamage damage }, fun _ => ⟨rfl, rfl⟩,
        block?_writeDamage ho hh damage w.tick⟩

/-- The content of all other positions stays as it is. -/
theorem content_damageBlock (r : Registry) (p : Coord) (amount : Float32) {q : Coord} (hq : q ≠ p) :
    ((w.damageBlock r p amount).2.block? q).map Cell.content
      = (w.block? q).map Cell.content := by
  obtain hbroken | ⟨f, -, hblock⟩ := block?_damageBlock ho r p amount
  · rw [hbroken, content_setBlock ho p air hq]
  · rw [hblock, if_neg hq]

/-- Digging tells that a block broke exactly if there was one and is none any more. -/
theorem damageBlock_fst (r : Registry) (p : Coord) (amount : Float32) :
    (w.damageBlock r p amount).1
      = ((w.block? p).isSome && ((w.damageBlock r p amount).2.block? p).isNone) := by
  have hsame : ∀ b : Option Cell, false = (b.isSome && b.isNone) := fun b => by cases b <;> rfl
  rw [damageBlock]
  cases hstrike : strike r (w.block? p) amount with
  | none => exact hsame (w.block? p)
  | broken =>
    have hthere : (w.block? p).isSome = true := by
      cases hb : w.block? p with
      | none => rw [hb, strike] at hstrike; cases hstrike
      | some b => rfl
    have hgone : ((w.setBlock p air).note (.blockBroken p)).block? p = none := by
      rw [(sameStorage_note _ _).block?_eq, block?_setBlock ho, if_pos rfl]
      rfl
    simp only [hthere, hgone, Option.isNone_none, Bool.and_self]
  | damaged damage =>
    cases hh : w.handle? p.parent with
    | none => exact hsame (w.block? p)
    | some h =>
      simp only
      rw [block?_writeDamage ho hh, if_pos rfl, Option.isNone_map]
      exact hsame (w.block? p)

/-! ## Removing chunks -/

theorem block?_unload (m q : Coord) :
    (w.unload m).2.block? q = if q.parent.parent = m then none else w.block? q := by
  rw [block?_eq_chunk?, block?_eq_chunk?, chunk?_unload ho]
  split <;> rfl

end Marks

@[simp] theorem block?_new (seed : Int64) (id : String) (createdAt : Data.Timestamp)
    (compression : String) (q : Coord) : (new seed id createdAt compression).block? q = none := by
  rw [block?_eq_chunk?, chunk?_new]
  rfl

theorem block?_reset (w : World) (q : Coord) : w.reset.block? q = none := by
  rw [block?_eq_chunk?, chunk?_reset]
  rfl

end World

end BlockWorld
