import Mathlib.Logic.Function.Basic
import BlockWorld.Proofs.Chunk
import BlockWorld.Proofs.World.Chunks
import BlockWorld.Proofs.World.Moves
/-!
A world is a plain sparse grid. The grid (`SparseGrid`) has no megachunks, no handles and no
remembered faces: it is a finite map from the coordinates of chunks to what is known of them, with
the content of every position of a chunk that is there. Each operation of a world is an equally
plain one of the grid, and the questions change nothing.

`Refines` relates a world to its grid. It holds of a new world, one action keeps it
(`Refines.apply`), and so does every run of actions; what a world answers can then be read off the
grid.

How the proof goes. The relation has two halves, one for what is known of each chunk and one for the content
of each position, and both are read off the chunks of the world. Three steps suffice for everything: making a
chunk on both sides (`Refines.ensure`), changing a chunk where the grid changes in the same way
(`Refines.change`), and changing one where the grid sees nothing of it (`Refines.unseen`). Marks and writes
are changes of the second kind (`Refines.mark`, `Refines.write`), and forgetting or remembering faces is one
of the third (`Refines.forgetFaces`, `Refines.visibleFaces`). Digging compares the damages of the same block
on both sides, so both break or neither does (`Refines.damageBlock`).
-/
namespace BlockWorld

open Grid Block

/-! ## The grid -/

/-- What is known of a chunk apart from its cells. -/
structure ChunkInfo where
  generated : Bool
  priority : Int64
  lastTouched : UInt64
  deriving DecidableEq, Repr

/-- What is known of a chunk of a world. -/
def ChunkData.info (d : ChunkData) : ChunkInfo := ⟨d.generated, d.priority, d.lastTouched⟩

/-- A sparse grid of blocks. -/
structure SparseGrid where
  chunks : Std.HashMap Coord ChunkInfo
  /-- The content of each position whose chunk is there. -/
  blocks : Coord → Option Content
  tick : UInt64

namespace SparseGrid

/-- A grid without chunks. -/
def empty : SparseGrid := ⟨∅, fun _ => none, 0⟩

/-- The block at a position, unless it is air. -/
def block? (g : SparseGrid) (p : Coord) : Option Content := (g.blocks p).filter (·.kind ≠ air)

/-- Whether a chunk is there and generated. -/
def isGenerated (g : SparseGrid) (c : Coord) : Bool := (g.chunks[c]?.map (·.generated)).getD false

/-- Makes a chunk of air unless it is there. -/
def ensure (g : SparseGrid) (c : Coord) : SparseGrid :=
  if g.chunks.contains c then g
  else { g with
    chunks := g.chunks.insert c ⟨false, 0, 0⟩
    blocks := fun p => if p.parent = c then some .air else g.blocks p }

/-- Changes what is known of one chunk. -/
def mark (g : SparseGrid) (c : Coord) (f : ChunkInfo → ChunkInfo) : SparseGrid :=
  { g with chunks := g.chunks.modify c f }

/-- Writes the content of one position, and the time into its chunk. -/
def write (g : SparseGrid) (p : Coord) (b : Content) : SparseGrid :=
  { g with blocks := Function.update g.blocks p (some b) }.mark p.parent
    fun i => { i with lastTouched := g.tick }

/-- Puts an undamaged block at a position, in a chunk that is made if it is not there. -/
def setBlock (g : SparseGrid) (p : Coord) (id : BlockId) : SparseGrid :=
  (g.ensure p.parent).write p ⟨id, 0⟩

/-- Digs at a position; tells whether the block broke, which leaves air. -/
def damageBlock (r : Registry) (g : SparseGrid) (p : Coord) (amount : Float32) :
    Bool × SparseGrid :=
  match g.block? p with
  | none => (false, g)
  | some b =>
    let hardness := r.hardness b.kind
    let damage := b.damage + amount / hardness
    if amount ≤ 0 ∨ hardness < 0 then (false, g)
    else if damage ≥ 1 then (true, g.write p .air)
    else (false, g.write p ⟨b.kind, Chunk.clampDamage damage⟩)

/-- Removes all chunks. -/
def reset (g : SparseGrid) : SparseGrid := { g with chunks := ∅, blocks := fun _ => none }

/-- Removes the chunks of a megachunk. -/
def unload (g : SparseGrid) (mega : Coord) : SparseGrid :=
  { g with
    chunks := g.chunks.filter fun c _ => c.parent ≠ mega
    blocks := fun p => if p.parent.parent = mega then none else g.blocks p }

/-! ### What a change leaves of the grid -/

theorem chunks_mark (g : SparseGrid) (c : Coord) (f : ChunkInfo → ChunkInfo) (c' : Coord) :
    (g.mark c f).chunks[c']? = if c' = c then g.chunks[c]?.map f else g.chunks[c']? := by
  rw [mark, Std.HashMap.getElem?_modify]
  by_cases he : c' = c
  · rw [if_pos he, if_pos (by simp [he])]
  · rw [if_neg he, if_neg (by simpa using Ne.symm he)]

theorem chunks_write (g : SparseGrid) (p : Coord) (b : Content) (c' : Coord) :
    (g.write p b).chunks[c']?
      = if c' = p.parent then g.chunks[p.parent]?.map fun i => { i with lastTouched := g.tick }
        else g.chunks[c']? :=
  chunks_mark _ p.parent _ c'

theorem blocks_write (g : SparseGrid) (p : Coord) (b : Content) (q : Coord) :
    (g.write p b).blocks q = if q = p then some b else g.blocks q :=
  Function.update_apply g.blocks p (some b) q

theorem chunks_unload (g : SparseGrid) (mega c : Coord) :
    (g.unload mega).chunks[c]? = if c.parent = mega then none else g.chunks[c]? := by
  rw [unload, Std.HashMap.getElem?_filter']
  by_cases he : c.parent = mega
  · rw [if_pos he]
    exact Option.filter_eq_none_iff.mpr fun _ _ => by simp [he]
  · rw [if_neg he]
    cases g.chunks[c]? with
    | none => rfl
    | some i => simp [he]

theorem blocks_unload (g : SparseGrid) (mega p : Coord) :
    (g.unload mega).blocks p = if p.parent.parent = mega then none else g.blocks p := rfl

theorem ensure_of_contains {g : SparseGrid} {c : Coord} (hc : g.chunks.contains c = true) :
    g.ensure c = g := by
  rw [ensure, if_pos hc]

theorem tick_ensure (g : SparseGrid) (c : Coord) : (g.ensure c).tick = g.tick := by
  rw [ensure]
  split <;> rfl

section Ensure

variable {g : SparseGrid} {c : Coord} (hc : g.chunks.contains c = false)
include hc

theorem chunks_ensure (c' : Coord) :
    (g.ensure c).chunks[c']? = if c' = c then some ⟨false, 0, 0⟩ else g.chunks[c']? := by
  rw [ensure, if_neg (by simp [hc]), Std.HashMap.getElem?_insert]
  by_cases he : c' = c
  · rw [if_pos he, if_pos (by simp [he])]
  · rw [if_neg he, if_neg (by simpa using Ne.symm he)]

theorem blocks_ensure (p : Coord) :
    (g.ensure c).blocks p = if p.parent = c then some .air else g.blocks p := by
  rw [ensure, if_neg (by simp [hc])]

end Ensure

end SparseGrid

/-! ## Actions -/

namespace Action

/-- The same action on a sparse grid. A question changes nothing there. -/
def applyGrid : Action → SparseGrid → SparseGrid
  | setBlock p id, g => g.setBlock p id
  | damageBlock r p amount, g => (g.damageBlock r p amount).2
  | markChunk c priority, g => (g.ensure c).mark c fun i => { i with priority }
  | markGenerated c, g => (g.ensure c).mark c fun i => { i with generated := true }
  | advanceTick, g => { g with tick := g.tick + 1 }
  | reset, g => g.reset
  | unload mega, g => g.unload mega
  | ask _, g => g

/-- Actions one after the other on a sparse grid. -/
def runGrid (actions : List Action) (g : SparseGrid) : SparseGrid :=
  actions.foldl (fun g a => a.applyGrid g) g

end Action

/-! ## A world and its grid -/

/-- The grid that a world stands for. -/
structure Refines (w : World) (g : SparseGrid) : Prop where
  owned : w.Owned
  tick : w.tick = g.tick
  chunks : ∀ c, (w.chunk? c).map (·.info) = g.chunks[c]?
  blocks : ∀ p, (w.chunk? p.parent).map (·.chunk.content p.place) = g.blocks p

namespace Refines

variable {w : World} {g : SparseGrid}

theorem new (seed : Int64) (id : String) (createdAt : Data.Timestamp) (compression : String) :
    Refines (.new seed id createdAt compression) .empty := by
  have hnone := World.chunk?_new seed id createdAt compression
  exact {
    owned := World.owned_new seed id createdAt compression
    tick := rfl
    chunks := fun c => by rw [hnone]; simp [SparseGrid.empty]
    blocks := fun p => by rw [hnone]; rfl }

/-- A world that differs in its books only stands for the same grid. -/
theorem congr {w' : World} (hr : Refines w g) (hs : w.SameStorage w') (ht : w'.tick = w.tick) :
    Refines w' g := by
  have hchunk : ∀ c, w'.chunk? c = w.chunk? c := by
    intro c
    rw [World.chunk?_eq_chunkAt, World.chunk?_eq_chunkAt, hs.chunkAt_eq]
  exact {
    owned := hs.owned hr.owned
    tick := ht.trans hr.tick
    chunks := fun c => by rw [hchunk]; exact hr.chunks c
    blocks := fun p => by rw [hchunk]; exact hr.blocks p }

theorem contains_iff (hr : Refines w g) (c : Coord) :
    g.chunks.contains c = (w.chunk? c).isSome := by
  rw [Std.HashMap.contains_eq_isSome_getElem?, ← hr.chunks, Option.isSome_map]

/-! ### What is seen -/

theorem block?_eq (hr : Refines w g) (p : Coord) : (w.block? p).map Cell.content = g.block? p := by
  rw [World.block?_eq_chunk?, SparseGrid.block?, ← hr.blocks]
  cases w.chunk? p.parent with
  | none => rfl
  | some d =>
    simp only [Option.bind_some, Option.map_some, Chunk.block?_map_content, Option.filter_some,
      decide_not, Bool.not_eq_true', decide_eq_false_iff_not]
    by_cases hair : (d.chunk.content p.place).kind = air
    · rw [if_pos hair, if_neg (not_not_intro hair)]
    · rw [if_neg hair, if_pos hair]

theorem isGenerated_eq (hr : Refines w g) (c : Coord) : w.isGenerated c = g.isGenerated c := by
  rw [World.isGenerated_eq, SparseGrid.isGenerated, ← hr.chunks, Option.map_map]
  rfl

/-! ### Changes -/

/-- A chunk that is made on both sides. -/
theorem ensure (hr : Refines w g) (c : Coord) : Refines (w.ensureChunk c).2 (g.ensure c) := by
  have hchunk := World.chunk?_ensureChunk hr.owned c
  have htick : (w.ensureChunk c).2.tick = (g.ensure c).tick := by
    rw [World.tick_ensureChunk, SparseGrid.tick_ensure]
    exact hr.tick
  have hcontains := hr.contains_iff c
  cases hc : w.chunk? c with
  | some d =>
    -- The chunk is there: neither side changes.
    have hsame : ∀ c', (w.ensureChunk c).2.chunk? c' = w.chunk? c' := by
      intro c'
      rw [hchunk, hc, Option.getD_some]
      split
      · rename_i he
        rw [he, hc]
      · rfl
    have hgrid : g.ensure c = g := by
      rw [hc] at hcontains
      exact SparseGrid.ensure_of_contains hcontains
    rw [hgrid] at htick ⊢
    exact {
      owned := hr.owned.ensureChunk c
      tick := htick
      chunks := fun c' => by rw [hsame]; exact hr.chunks c'
      blocks := fun p => by rw [hsame]; exact hr.blocks p }
  | none =>
    rw [hc] at hcontains hchunk
    exact {
      owned := hr.owned.ensureChunk c
      tick := htick
      chunks := fun c' => by
        rw [hchunk, SparseGrid.chunks_ensure hcontains, ← hr.chunks]
        split <;> rfl
      blocks := fun p => by
        rw [hchunk, SparseGrid.blocks_ensure hcontains, ← hr.blocks]
        split
        · exact congrArg some (Chunk.content_empty p.place)
        · rfl }

section Change

variable {c : Coord} {h : Nat} {f : ChunkData → ChunkData}

/-- A change of one chunk, on the grid a change of what is known of the chunk and of the content of
its positions. -/
theorem change {g' : SparseGrid} (hr : Refines w g) (hh : w.handle? c = some h)
    (htick : g'.tick = g.tick)
    (hchunks : ∀ c', g'.chunks[c']?
      = if c' = c then some (f (w.arena.slot h)).info else g.chunks[c']?)
    (hblocks : ∀ p, g'.blocks p
      = if p.parent = c then some ((f (w.arena.slot h)).chunk.content p.place) else g.blocks p) :
    Refines (w.modifySlot h f) g' := by
  have hchunk := World.chunk?_modifySlot hr.owned hh f
  rw [hr.owned.chunk?_of_handle? hh, Option.map_some] at hchunk
  exact {
    owned := hr.owned.modifySlot_of_handle? hh f
    tick := hr.tick.trans htick.symm
    chunks := fun c' => by
      rw [hchunk, hchunks, ← hr.chunks]
      split <;> rfl
    blocks := fun p => by
      rw [hchunk, hblocks, ← hr.blocks]
      split <;> rfl }

theorem blocks_of_handle? (hr : Refines w g) (hh : w.handle? c = some h) {p : Coord}
    (hp : p.parent = c) : g.blocks p = some ((w.arena.slot h).chunk.content p.place) := by
  rw [← hr.blocks, hp, hr.owned.chunk?_of_handle? hh, Option.map_some]

theorem chunks_of_handle? (hr : Refines w g) (hh : w.handle? c = some h) :
    g.chunks[c]? = some (w.arena.slot h).info := by
  rw [← hr.chunks, hr.owned.chunk?_of_handle? hh, Option.map_some]

/-- A change of what is known of a chunk. -/
theorem mark (hr : Refines w g) (hh : w.handle? c = some h) {fi : ChunkInfo → ChunkInfo}
    (hinfo : (f (w.arena.slot h)).info = fi (w.arena.slot h).info)
    (hcontent : ∀ l, (f (w.arena.slot h)).chunk.content l = (w.arena.slot h).chunk.content l) :
    Refines (w.modifySlot h f) (g.mark c fi) := by
  refine hr.change hh rfl (fun c' => ?_) (fun p => ?_)
  · rw [SparseGrid.chunks_mark, hr.chunks_of_handle? hh, Option.map_some, hinfo]
  · rw [SparseGrid.mark, hcontent]
    split
    · rename_i he
      exact hr.blocks_of_handle? hh he
    · rfl

/-- A change that the grid does not see. -/
theorem unseen (hr : Refines w g) (hh : w.handle? c = some h)
    (hinfo : (f (w.arena.slot h)).info = (w.arena.slot h).info)
    (hcontent : ∀ l, (f (w.arena.slot h)).chunk.content l = (w.arena.slot h).chunk.content l) :
    Refines (w.modifySlot h f) g := by
  refine hr.change hh rfl (fun c' => ?_) (fun p => ?_)
  · rw [hinfo]
    split
    · rename_i he
      rw [he, hr.chunks_of_handle? hh]
    · rfl
  · rw [hcontent]
    split
    · rename_i he
      exact hr.blocks_of_handle? hh he
    · rfl

/-- A new content of one position. -/
theorem write {p : Coord} {b : Content} (hr : Refines w g) (hh : w.handle? p.parent = some h)
    (hinfo : (f (w.arena.slot h)).info = { (w.arena.slot h).info with lastTouched := g.tick })
    (hcontent : ∀ l, (f (w.arena.slot h)).chunk.content l
      = if l = p.place then b else (w.arena.slot h).chunk.content l) :
    Refines (w.modifySlot h f) (g.write p b) := by
  refine hr.change hh rfl (fun c' => ?_) (fun q => ?_)
  · rw [SparseGrid.chunks_write, hr.chunks_of_handle? hh, Option.map_some, hinfo]
  · rw [SparseGrid.blocks_write, hcontent]
    by_cases hparent : q.parent = p.parent
    · rw [if_pos hparent, hr.blocks_of_handle? hh hparent]
      by_cases hplace : q.place = p.place
      · rw [if_pos (Coord.eq_of_parent_place hparent hplace), if_pos hplace]
      · rw [if_neg (fun he => hplace (congrArg Coord.place he)), if_neg hplace]
    · rw [if_neg hparent, if_neg (fun he => hparent (congrArg Coord.parent he))]

end Change

/-! ### Actions -/

theorem forgetFaces (hr : Refines w g) (p : Coord) : Refines (w.forgetFaces p) g := by
  rw [World.forgetFaces]
  cases hh : w.handle? p.parent with
  | none => exact hr
  | some h =>
    exact hr.unseen hh rfl fun l => Chunk.content_resetFaces (w.arena.slot h).chunk p.place l

/-- Forgetting faces at any number of positions is not seen on the grid. -/
theorem foldl_forgetFaces (ps : List Coord) (hr : Refines w g) :
    Refines (ps.foldl World.forgetFaces w) g := by
  induction ps generalizing w with
  | nil => exact hr
  | cons p ps ih => exact ih (hr.forgetFaces p)

theorem setBlock (hr : Refines w g) (p : Coord) (id : BlockId) :
    Refines (w.setBlock p id) (g.setBlock p id) := by
  have hwritten := (hr.ensure p.parent).write (w.handle?_ensureChunk p.parent)
    (f := fun d => { d with chunk := d.chunk.setBlock p.place id, lastTouched := w.tick })
    (by rw [SparseGrid.tick_ensure, ← hr.tick]; rfl)
    (fun l => Chunk.content_setBlock _ p.place id l)
  exact foldl_forgetFaces _ (hwritten.congr ⟨rfl, rfl⟩ rfl)

theorem visibleFaces (hr : Refines w g) (r : Registry) (p : Coord) :
    Refines (w.visibleFaces r p).2 g := by
  rw [World.visibleFaces]
  cases hh : w.handle? p.parent with
  | none => exact hr
  | some h => exact hr.unseen hh rfl fun l => Chunk.content_visibleFaces r _ p.place _ _ l

/-- A block that is seen lies in a chunk that has a handle. -/
theorem handle?_of_block? (hr : Refines w g) {p : Coord} {b : Cell} (hb : w.block? p = some b) :
    ∃ h, w.handle? p.parent = some h ∧ (w.arena.slot h).chunk.content p.place = b.content := by
  rw [World.block?_eq_chunk?, Option.bind_eq_some_iff] at hb
  obtain ⟨d, hd, hb⟩ := hb
  rw [hr.owned.chunk?_eq, Option.map_eq_some_iff] at hd
  obtain ⟨h, hh, rfl⟩ := hd
  refine ⟨h, hh, ?_⟩
  have hcontent := Chunk.block?_map_content (w.arena.slot h).chunk p.place
  rw [hb, Option.map_some] at hcontent
  split at hcontent
  · cases hcontent
  · exact (Option.some.inj hcontent).symm

/-- Digging gives the same answer on both sides, and leads to the same grid. -/
theorem damageBlock (hr : Refines w g) (r : Registry) (p : Coord) (amount : Float32) :
    (w.damageBlock r p amount).1 = (g.damageBlock r p amount).1
      ∧ Refines (w.damageBlock r p amount).2 (g.damageBlock r p amount).2 := by
  have hseen := hr.block?_eq p
  rw [World.damageBlock, SparseGrid.damageBlock, ← hseen]
  cases hb : w.block? p with
  | none => exact ⟨rfl, hr⟩
  | some b =>
    obtain ⟨h, hh, hcontent⟩ := hr.handle?_of_block? hb
    simp only [World.strike, Option.map_some, Cell.content]
    by_cases hhard : amount ≤ 0 ∨ r.hardness b.kind < 0
    · rw [if_pos hhard, if_pos hhard]
      exact ⟨rfl, hr⟩
    rw [if_neg hhard, if_neg hhard]
    by_cases hbreak : b.damage + amount / r.hardness b.kind ≥ 1
    · rw [if_pos hbreak, if_pos hbreak]
      -- The chunk is there, so that nothing is made for the air that is left.
      have hthere : g.ensure p.parent = g := by
        apply SparseGrid.ensure_of_contains
        rw [hr.contains_iff, hr.owned.chunk?_of_handle? hh]
        rfl
      have hair := hr.setBlock p air
      rw [SparseGrid.setBlock, hthere] at hair
      exact ⟨rfl, hair.congr (World.sameStorage_note _ _) (World.tick_note _ _)⟩
    · rw [if_neg hbreak, if_neg hbreak]
      simp only [hh]
      refine ⟨trivial, hr.write hh (by rw [← hr.tick]; rfl) fun l => ?_⟩
      rw [Chunk.content_setDamage, hcontent]
      rfl

theorem reset (hr : Refines w g) : Refines w.reset g.reset where
  owned := hr.owned.reset
  tick := hr.tick
  chunks := fun c => by rw [World.chunk?_reset]; simp [SparseGrid.reset]
  blocks := fun p => by rw [World.chunk?_reset]; rfl

theorem unload (hr : Refines w g) (mega : Coord) :
    Refines (w.unload mega).2 (g.unload mega) where
  owned := hr.owned.unload mega
  tick := (World.tick_unload w mega).trans hr.tick
  chunks := fun c => by
    rw [World.chunk?_unload hr.owned, SparseGrid.chunks_unload, ← hr.chunks]
    split <;> rfl
  blocks := fun p => by
    rw [World.chunk?_unload hr.owned, SparseGrid.blocks_unload, ← hr.blocks]
    split <;> rfl

theorem ask (hr : Refines w g) (q : Question) : Refines (q.apply w) g := by
  cases q with
  | refresh p => exact foldl_forgetFaces _ hr
  | visibleFaces r p => exact hr.visibleFaces r p
  | block? p => exact hr
  | chunk? c => exact hr
  | raycast origin direction length before =>
    simp only [Question.apply, World.raycast]
    split
    · exact hr
    · exact hr.congr ⟨rfl, rfl⟩ rfl
  | collide box => exact hr.congr ⟨rfl, rfl⟩ rfl

/-- One action keeps a world and its grid together. -/
theorem apply (hr : Refines w g) (a : Action) : Refines (a.apply w) (a.applyGrid g) := by
  cases a with
  | setBlock p id => exact hr.setBlock p id
  | damageBlock r p amount => exact (hr.damageBlock r p amount).2
  | markChunk c priority =>
    exact (hr.ensure c).mark (w.handle?_ensureChunk c) rfl fun _ => rfl
  | markGenerated c =>
    exact (hr.ensure c).mark (w.handle?_ensureChunk c) rfl fun _ => rfl
  | advanceTick => exact ⟨hr.owned, congrArg (· + 1) hr.tick, hr.chunks, hr.blocks⟩
  | reset => exact hr.reset
  | unload mega => exact hr.unload mega
  | ask q => exact hr.ask q

/-- So does every run. -/
theorem run (hr : Refines w g) (actions : List Action) :
    Refines (Action.run actions w) (Action.runGrid actions g) := by
  induction actions generalizing w g with
  | nil => exact hr
  | cons a actions ih => exact ih (hr.apply a)

end Refines

/-! ## Questions and megachunks -/

/-- Asking neither makes nor removes nor changes a megachunk. -/
theorem Question.megachunks_apply (q : Question) (w : World) :
    (q.apply w).megachunks = w.megachunks := by
  cases q with
  | refresh p => exact w.megachunks_refresh p
  | visibleFaces r p =>
    simp only [Question.apply, World.visibleFaces]
    split <;> rfl
  | block? p => rfl
  | chunk? c => rfl
  | raycast origin direction length before =>
    simp only [Question.apply, World.raycast]
    split <;> rfl
  | collide box => rfl

/-- After any run of actions from a new world, everything that is seen of it is what the sparse grid
says: its blocks, what is known of its chunks, the content of every position and the answer to the
next blow. A further question adds no megachunk. -/
theorem run_new_answers_as_grid (seed : Int64) (id : String) (createdAt : Data.Timestamp)
    (compression : String) (actions : List Action) :
    let w := Action.run actions (.new seed id createdAt compression)
    let g := Action.runGrid actions .empty
    (∀ p, (w.block? p).map Cell.content = g.block? p)
      ∧ (∀ c, (w.chunk? c).map (·.info) = g.chunks[c]?)
      ∧ (∀ c, w.isGenerated c = g.isGenerated c)
      ∧ (∀ p, (w.chunk? p.parent).map (·.chunk.content p.place) = g.blocks p)
      ∧ (∀ r p amount, (w.damageBlock r p amount).1 = (g.damageBlock r p amount).1)
      ∧ (∀ q : Question, (q.apply w).megachunks = w.megachunks) := by
  intro w g
  have hr : Refines w g := (Refines.new seed id createdAt compression).run actions
  exact ⟨hr.block?_eq, hr.chunks, hr.isGenerated_eq, hr.blocks,
    fun r p amount => (hr.damageBlock r p amount).1, fun q => q.megachunks_apply w⟩

end BlockWorld
