import Mathlib.Logic.Relation
import BlockWorld.Proofs.Terrain.Targets
import BlockWorld.Proofs.World.Chunks
import BlockWorld.Proofs.World.Moves
/-!
What edits can do. All operations of a world that neither remove chunks nor load a save are chains
of three elementary edits: reaching for a chunk, changing a chunk through its handle, and changing
the books. What elementary edits keep, all these operations keep; what removing chunks and loading
keep as well, every run of moves keeps (`Move.run_keeps`).

How the proof goes. `Edits` is the reflexive and transitive closure of `Edit`. For each operation there is one
lemma that it is such a chain (`edits_setBlock`, `edits_damageBlock`, `edits_visibleFaces`,
`edits_generateSpawn` and so on), which follows the definition of the operation, and `edits_apply` collects
them for all moves but two. To show that something is kept by every run it is then enough to look at three
edits, at unloading and at loading. Filling chunks is described as a fold of writes before that
(`generateChunk_world`, `generateChunks_world`), since its definition allows for targets that refuse a block.
-/
namespace BlockWorld

open Grid Block Relation

namespace World

/-- What a save says about a world as a whole. -/
def SameName (w w' : World) : Prop :=
  w'.id = w.id ∧ w'.seed = w.seed ∧ w'.createdAt = w.createdAt ∧ w'.compression = w.compression

theorem SameName.refl (w : World) : w.SameName w := ⟨rfl, rfl, rfl, rfl⟩

theorem SameName.trans {u v w : World} (huv : u.SameName v) (hvw : v.SameName w) :
    u.SameName w :=
  ⟨hvw.1.trans huv.1, hvw.2.1.trans huv.2.1, hvw.2.2.1.trans huv.2.2.1,
    hvw.2.2.2.trans huv.2.2.2⟩

/-- An elementary edit. -/
inductive Edit : World → World → Prop where
  | reach (w : World) (c : Coord) : Edit w (w.ensureChunk c).2
  | change {w : World} {c : Coord} {h : Nat} (hh : w.handle? c = some h)
      (f : ChunkData → ChunkData) : Edit w (w.modifySlot h f)
  | books {w w' : World} (hs : w.SameStorage w') (hn : w.SameName w') : Edit w w'

/-- A chain of elementary edits. -/
abbrev Edits : World → World → Prop := ReflTransGen Edit

/-! ## What edits keep -/

theorem Edit.owned {w w' : World} (he : Edit w w') (ho : w.Owned) : w'.Owned := by
  cases he with
  | reach c => exact ho.ensureChunk c
  | change hh f => exact ho.modifySlot_of_handle? hh f
  | books hs hn => exact hs.owned ho

theorem sameName_ensureChunk (w : World) (c : Coord) : w.SameName (w.ensureChunk c).2 := by
  rw [ensureChunk, ensureMegachunk]
  split
  · exact .refl w
  · split <;> exact ⟨rfl, rfl, rfl, rfl⟩

theorem Edit.sameName {w w' : World} (he : Edit w w') : w.SameName w' := by
  cases he with
  | reach c => exact sameName_ensureChunk w c
  | change hh f => exact ⟨rfl, rfl, rfl, rfl⟩
  | books hs hn => exact hn

/-- A megachunk that is there after an edit was there before, or was made for a chunk in it. -/
theorem Edit.table_isSome {w w' : World} (he : Edit w w') {m : Coord}
    (hm : (w'.table m).isSome = true) : (w.table m).isSome = true ∨ ∃ c : Coord, m = c.parent := by
  cases he with
  | reach c =>
    cases (table_ensureChunk_isSome m).mp hm with
    | inl hbefore => exact .inl hbefore
    | inr hmc => exact .inr ⟨c, hmc⟩
  | change hh f => exact .inl hm
  | books hs hn =>
    rw [hs.table_eq] at hm
    exact .inl hm

/-- What every elementary edit keeps, a chain of edits keeps. -/
theorem Edits.keeps {P : World → Prop} (hstep : ∀ {u v}, Edit u v → P u → P v) {w w' : World}
    (he : Edits w w') (hw : P w) : P w' := by
  induction he with
  | refl => exact hw
  | tail _ hlast ih => exact hstep hlast ih

theorem Edits.owned {w w' : World} (he : Edits w w') (ho : w.Owned) : w'.Owned :=
  he.keeps Edit.owned ho

theorem Edits.sameName {w w' : World} (he : Edits w w') : w.SameName w' :=
  he.keeps (P := w.SameName) (fun hlast hn => hn.trans hlast.sameName) (.refl w)

/-! ## Operations as chains of edits -/

theorem edits_books {w w' : World} (hs : w.SameStorage w') (hn : w.SameName w') : Edits w w' :=
  .single (.books hs hn)

theorem edits_note (w : World) (e : Event) : Edits w (w.note e) :=
  edits_books ⟨rfl, rfl⟩ ⟨rfl, rfl, rfl, rfl⟩

/-- A chunk that is made if need be, and changed. -/
theorem edits_reach_change (w : World) (c : Coord) (f : ChunkData → ChunkData) :
    Edits w ((w.ensureChunk c).2.modifySlot (w.ensureChunk c).1 f) :=
  .tail (.single (.reach w c)) (.change (w.handle?_ensureChunk c) f)

theorem edits_foldl {α : Type} {f : World → α → World} (hf : ∀ w a, Edits w (f w a)) (l : List α)
    (w : World) : Edits w (l.foldl f w) := by
  induction l generalizing w with
  | nil => exact .refl
  | cons a l ih => exact (hf w a).trans (ih (f w a))

theorem edits_forgetFaces (w : World) (p : Coord) : Edits w (w.forgetFaces p) := by
  rw [forgetFaces]
  cases hh : w.handle? p.parent with
  | none => exact .refl
  | some h => exact .single (.change hh _)

theorem edits_refresh (w : World) (p : Coord) : Edits w (w.refresh p) :=
  edits_foldl edits_forgetFaces _ w

theorem edits_setBlock (w : World) (p : Coord) (id : BlockId) : Edits w (w.setBlock p id) := by
  refine .trans ?_ (edits_refresh _ p)
  refine .trans (edits_reach_change w p.parent fun d =>
    { d with chunk := d.chunk.setBlock p.place id, lastTouched := w.tick }) ?_
  exact edits_books ⟨rfl, rfl⟩ ⟨rfl, rfl, rfl, rfl⟩

theorem edits_visibleFaces (r : Registry) (w : World) (p : Coord) :
    Edits w (w.visibleFaces r p).2 := by
  rw [visibleFaces]
  cases hh : w.handle? p.parent with
  | none => exact .refl
  | some h => exact .single (.change hh _)

theorem edits_damageBlock (r : Registry) (w : World) (p : Coord) (amount : Float32) :
    Edits w (w.damageBlock r p amount).2 := by
  rw [damageBlock]
  cases strike r (w.block? p) amount with
  | none => exact .refl
  | broken => exact (edits_setBlock w p air).trans (edits_note _ _)
  | damaged damage =>
    cases hh : w.handle? p.parent with
    | none => simp only; exact .refl
    | some h => simp only; exact .single (.change hh _)

theorem edits_markCached (w : World) (c : Coord) : Edits w (w.markCached c) := by
  rw [markCached]
  cases hh : w.handle? c with
  | none => exact .refl
  | some h => exact .single (.change hh _)

theorem edits_markGenerated (w : World) (c : Coord) : Edits w (w.markGenerated c) :=
  edits_reach_change w c _

theorem edits_ask (q : Question) (w : World) : Edits w (q.apply w) := by
  cases q with
  | refresh p => exact edits_refresh w p
  | visibleFaces r p => exact edits_visibleFaces r w p
  | block? p => exact .refl
  | chunk? c => exact .refl
  | raycast origin direction length before =>
    simp only [Question.apply, raycast]
    split
    · exact .refl
    · exact edits_books ⟨rfl, rfl⟩ ⟨rfl, rfl, rfl, rfl⟩
  | collide box => exact edits_books ⟨rfl, rfl⟩ ⟨rfl, rfl, rfl, rfl⟩

theorem edits_saveTo {σ : Type} (w : World) (savedAt : Data.Timestamp) (sink : Save.Sink σ)
    (s : σ) : Edits w (w.saveTo savedAt sink s).2.2 := by
  rw [saveTo]
  split <;> exact edits_books ⟨rfl, rfl⟩ ⟨rfl, rfl, rfl, rfl⟩

/-! ## The generator -/

section Terrain

open Terrain

/-- Filling a chunk of a world. -/
theorem generateChunk_world (g : Landscape) (chunk : Coord) (w : World) :
    (generateChunk .world g chunk w).1
      = if w.isGenerated chunk then w
        else ((g.chunkWrites chunk).foldl (fun w (p, id) => w.setBlock p id) w).markGenerated
          chunk := by
  rw [generateChunk_fst]
  simp only [Target.world]
  rfl

theorem generateChunks_world (g : Landscape) (filled chunks : List Coord) (w : World) :
    (generateChunks .world g filled chunks w).target
      = chunks.foldl (fun w c => (generateChunk .world g c w).1) w :=
  generateChunks_target .world g filled chunks w

theorem edits_generateChunk (g : Landscape) (chunk : Coord) (w : World) :
    Edits w (generateChunk .world g chunk w).1 := by
  rw [generateChunk_world]
  split
  · exact .refl
  · exact (edits_foldl (fun w (p, id) => edits_setBlock w p id) _ w).trans
      (edits_markGenerated _ chunk)

theorem edits_generateSpawn (g : Landscape) (radius : Int64) (w : World) :
    Edits w (generateSpawn .world g radius w).target := by
  rw [generateSpawn, generateChunks_world]
  exact edits_foldl (fun w c => edits_generateChunk g c w) _ w

end Terrain

end World

/-! ## Moves -/

namespace Move

open World

/-- Every move is a chain of edits, unless it removes chunks or loads a save. -/
theorem edits_apply (m : Move) (w : World) :
    Edits w (m.apply w) ∨ m = .act .reset ∨ (∃ c, m = .act (.unload c)) ∨ ∃ s, m = .load s := by
  cases m with
  | act a =>
    cases a with
    | setBlock p id => exact .inl (edits_setBlock w p id)
    | damageBlock r p amount => exact .inl (edits_damageBlock r w p amount)
    | markChunk c priority => exact .inl (edits_reach_change w c _)
    | markGenerated c => exact .inl (edits_markGenerated w c)
    | advanceTick => exact .inl (edits_books ⟨rfl, rfl⟩ ⟨rfl, rfl, rfl, rfl⟩)
    | reset => exact .inr (.inl rfl)
    | unload c => exact .inr (.inr (.inl ⟨c, rfl⟩))
    | ask q => exact .inl (edits_ask q w)
  | markCached c => exact .inl (edits_markCached w c)
  | save savedAt archive => exact .inl (edits_saveTo w savedAt _ archive)
  | load source => exact .inr (.inr (.inr ⟨source, rfl⟩))
  | generateChunk g chunk => exact .inl (edits_generateChunk g chunk w)
  | generateSpawn g radius => exact .inl (edits_generateSpawn g radius w)

/-- What elementary edits, removing chunks and loading keep, every run keeps. -/
theorem run_keeps {P : World → Prop} (hedit : ∀ {u v}, Edit u v → P u → P v)
    (hreset : ∀ {u}, P u → P u.reset) (hunload : ∀ {u} c, P u → P (u.unload c).2)
    (hload : ∀ {u} source, P u → P (u.loadFrom source).2) (moves : List Move) {w : World}
    (hw : P w) : P (run moves w) := by
  induction moves generalizing w with
  | nil => exact hw
  | cons m moves ih =>
    refine ih ?_
    obtain he | rfl | ⟨c, rfl⟩ | ⟨source, rfl⟩ := m.edits_apply w
    · exact he.keeps hedit hw
    · exact hreset hw
    · exact hunload c hw
    · exact hload source hw

end Move

end BlockWorld
