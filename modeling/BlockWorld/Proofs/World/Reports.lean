import BlockWorld.Proofs.World.Edits
/-!
What a world reports about itself is up to date. The report on the storage is made anew at a few
places only: where a chunk has been made, where chunks have been removed, and after a load. `Silent`
collects what happens in between, which must not change any reported number; `Reported` is then kept
by every move.

Writes are counted a second time, from outside: a `Tally` is a world and a counter that goes up
whenever a block is put, and all moves are made on tallies in the same way as on worlds
(`Books.apply`). The counter that the world reports is the one of the tally.

How the proof goes. `Silent` is reflexive and transitive and holds of a world before and after something that
either changes no reported number or reports again at its end. Each operation is shown to be silent, piece by
piece: a change of a slot is not reported (`Silent.modifySlot`), and a chunk that is made is followed by a
report (`Silent.ensureChunk`). A write is silent but for its own count, which goes up by one on both sides
(`Books.setBlock`). Landscapes are written to a tally as they are to a world, because the two answer alike
(`target_matches`). So one move keeps the books (`Books.apply`), and a run does by induction (`Books.run`).
-/
namespace BlockWorld

open Grid Block Terrain

/-! ## Counting from outside -/

/-- A world, and how many blocks have been put into it. -/
structure Tally where
  world : World
  writes : Nat

namespace Tally

/-- Something happens to the world, but no block is put. -/
def along (t : Tally) (f : World → World) : Tally := { t with world := f t.world }

/-- Puts a block. -/
def setBlock (t : Tally) (p : Coord) (id : BlockId) : Tally :=
  ⟨t.world.setBlock p id, t.writes + 1⟩

/-- Digs at a position. Air is put where a block breaks. -/
def damageBlock (r : Registry) (t : Tally) (p : Coord) (amount : Float32) : Tally :=
  match World.strike r (t.world.block? p) amount with
  | .none => t
  | .broken => (t.setBlock p air).along (·.note (.blockBroken p))
  | .damaged _ => t.along fun w => (w.damageBlock r p amount).2

/-- A landscape is written to a tally block by block. -/
def target : Target Tally Empty where
  setBlock t p id := (t.setBlock p id, none)
  markGenerated t c := t.along (·.markGenerated c)
  isGenerated t c := t.world.isGenerated c

/-- An action on a tally. -/
def act : Action → Tally → Tally
  | .setBlock p id, t => t.setBlock p id
  | .damageBlock r p amount, t => t.damageBlock r p amount
  | a, t => t.along a.apply

/-- A move on a tally. -/
def apply : Move → Tally → Tally
  | .act a, t => act a t
  | .generateChunk g chunk, t => (generateChunk target g chunk t).1
  | .generateSpawn g radius, t => (generateSpawn target g radius t).target
  | m, t => t.along m.apply

/-- Moves one after the other. -/
def run (moves : List Move) (t : Tally) : Tally := moves.foldl (fun t m => apply m t) t

end Tally

namespace World

/-! ## Reports on the storage -/

/-- The numbers that were last reported are those of the storage as it is now. -/
structure Reported (w : World) : Prop where
  chunks : w.gauges.chunks = w.arena.live
  capacity : w.gauges.capacity = w.arena.size
  freeSlots : w.gauges.freeSlots = w.arena.freeCount
  megachunks : w.gauges.megachunks = w.megachunkCount

/-- A report is up to date when it has just been made. -/
theorem reported_observe (w : World) : w.observe.Reported := ⟨rfl, rfl, rfl, rfl⟩

theorem reported_new (seed : Int64) (id : String) (createdAt : Data.Timestamp)
    (compression : String) : (new seed id createdAt compression).Reported := by
  constructor <;> simp [new, Gauges.zero, Arena.empty, Arena.size, Arena.freeCount, megachunkCount]

namespace Gauges

/-- Two reports with the same numbers for the storage and the same number of writes. -/
structure SameStock (g g' : Gauges) : Prop where
  chunks : g'.chunks = g.chunks
  capacity : g'.capacity = g.capacity
  freeSlots : g'.freeSlots = g.freeSlots
  megachunks : g'.megachunks = g.megachunks
  blockWrites : g'.blockWrites = g.blockWrites

namespace SameStock

theorem refl (g : Gauges) : g.SameStock g := ⟨rfl, rfl, rfl, rfl, rfl⟩

theorem ray (g : Gauges) (hit : Bool) : g.SameStock (g.ray hit) := by
  cases hit <;> exact ⟨rfl, rfl, rfl, rfl, rfl⟩

theorem collision (g : Gauges) (pushed : Bool) : g.SameStock (g.collision pushed) := by
  cases pushed <;> exact ⟨rfl, rfl, rfl, rfl, rfl⟩

theorem saved (g : Gauges) (ok : Bool) : g.SameStock (g.saved ok) := by
  cases ok <;> exact ⟨rfl, rfl, rfl, rfl, rfl⟩

theorem loaded (g : Gauges) (ok : Bool) : g.SameStock (g.loaded ok) := by
  cases ok <;> exact ⟨rfl, rfl, rfl, rfl, rfl⟩

end SameStock

end Gauges

/-- A change that leaves no number unreported and counts no write. -/
structure Silent (w w' : World) : Prop where
  reported : w.Reported → w'.Reported
  writes : w'.gauges.blockWrites = w.gauges.blockWrites

namespace Silent

theorem refl (w : World) : w.Silent w := ⟨fun h => h, rfl⟩

theorem trans {u v w : World} (huv : u.Silent v) (hvw : v.Silent w) : u.Silent w :=
  ⟨fun h => hvw.reported (huv.reported h), hvw.writes.trans huv.writes⟩

theorem foldl {α : Type} {f : World → α → World} (hf : ∀ (w : World) a, w.Silent (f w a)) (l : List α)
    (w : World) : w.Silent (l.foldl f w) := by
  induction l generalizing w with
  | nil => exact refl w
  | cons a l ih => exact (hf w a).trans (ih (f w a))

/-- Nothing is reported, and there is nothing new to report. -/
theorem books {w w' : World} (hs : w.SameStorage w') (hg : w.gauges.SameStock w'.gauges) :
    w.Silent w' where
  reported hw := by
    obtain ⟨hmegachunks, harena⟩ := hs
    constructor
    · rw [hg.chunks, harena, hw.chunks]
    · rw [hg.capacity, harena, hw.capacity]
    · rw [hg.freeSlots, harena, hw.freeSlots]
    · rw [hg.megachunks, hw.megachunks, megachunkCount, megachunkCount, hmegachunks]
  writes := hg.blockWrites

theorem note (w : World) (e : Event) : w.Silent (w.note e) := books ⟨rfl, rfl⟩ (.refl _)

/-- What a chunk holds is not reported. -/
theorem modifySlot (w : World) (h : Nat) (f : ChunkData → ChunkData) : w.Silent (w.modifySlot h f) :=
  ⟨fun hw => ⟨hw.chunks, hw.capacity, hw.freeSlots, hw.megachunks⟩, rfl⟩

/-- A megachunk is only ever made for a chunk, and the report follows when the chunk is there. -/
theorem ensureChunk (w : World) (c : Coord) : w.Silent (w.ensureChunk c).2 := by
  cases hh : w.handle? c with
  | some h =>
    rw [ensureChunk_of_some hh]
    exact refl w
  | none =>
    rw [ensureChunk_of_none hh]
    refine ⟨fun _ => reported_observe _, ?_⟩
    have hmade : (w.ensureMegachunk c.parent).gauges = w.gauges := by
      unfold ensureMegachunk
      split <;> rfl
    rw [← hmade]
    rfl

theorem forgetFaces (w : World) (p : Coord) : w.Silent (w.forgetFaces p) := by
  unfold World.forgetFaces
  split
  · exact modifySlot w _ _
  · exact refl w

theorem refresh (w : World) (p : Coord) : w.Silent (w.refresh p) :=
  foldl forgetFaces (surroundings p) w

theorem visibleFaces (r : Registry) (w : World) (p : Coord) : w.Silent (w.visibleFaces r p).2 := by
  rw [World.visibleFaces]
  cases hh : w.handle? p.parent with
  | none => exact refl w
  | some h => exact modifySlot w h _

theorem mark (w : World) (c : Coord) (f : ChunkData → ChunkData) :
    w.Silent ((w.ensureChunk c).2.modifySlot (w.ensureChunk c).1 f) :=
  (ensureChunk w c).trans (modifySlot _ _ f)

theorem markCached (w : World) (c : Coord) : w.Silent (w.markCached c) := by
  unfold World.markCached
  split
  · exact modifySlot w _ _
  · exact refl w

/-- Digging that breaks nothing changes a damage at most. -/
theorem damageBlock {r : Registry} {w : World} {p : Coord} {amount damage : Float32}
    (hs : strike r (w.block? p) amount = .damaged damage) :
    w.Silent (w.damageBlock r p amount).2 := by
  unfold World.damageBlock
  rw [hs]
  cases hh : w.handle? p.parent with
  | none => simpa using refl w
  | some h => simpa using modifySlot w h _

theorem ask (q : Question) (w : World) : w.Silent (q.apply w) := by
  cases q with
  | refresh p => exact refresh w p
  | visibleFaces r p => exact visibleFaces r w p
  | block? p => exact refl w
  | chunk? c => exact refl w
  | raycast origin direction length before =>
    simp only [Question.apply, raycast]
    split
    · exact refl w
    · exact books ⟨rfl, rfl⟩ (.ray w.gauges _)
  | collide box => exact books ⟨rfl, rfl⟩ (.collision w.gauges _)

theorem reset (w : World) : w.Silent w.reset :=
  ⟨fun _ => (note _ .cleared).reported (reported_observe _), rfl⟩

theorem unload (w : World) (mega : Coord) : w.Silent (w.unload mega).2 := by
  cases hm : w.table mega with
  | none =>
    rw [unload_of_none hm]
    exact refl w
  | some m =>
    have hget : w.megachunks[mega]? = some m := hm
    constructor
    · intro _
      simp only [World.unload, hget]
      exact reported_observe _
    · simp only [World.unload, hget, observe, Gauges.observe]

theorem saveTo {σ : Type} (w : World) (savedAt : Data.Timestamp) (sink : Save.Sink σ) (s : σ) :
    w.Silent (w.saveTo savedAt sink s).2.2 := by
  unfold World.saveTo
  split
  · exact books ⟨rfl, rfl⟩ (.saved w.gauges true)
  · exact books ⟨rfl, rfl⟩ (.saved w.gauges false)

/-- A load that succeeds reports at its end, and one that fails has changed nothing. -/
theorem loadFrom (w : World) (source : Save.Source) : w.Silent (w.loadFrom source).2 := by
  have hplace : ∀ (ps : List ParsedMegachunk) (u : World),
      (ps.foldl World.place u).gauges = u.gauges := by
    intro ps
    induction ps with
    | nil => intro u; rfl
    | cons p ps ih => intro u; exact ih (u.place p)
  have hadopt : ∀ (m : Option Save.Manifest) (u : World), (u.adopt m).gauges = u.gauges := by
    intro m u
    cases m <;> rfl
  unfold World.loadFrom
  cases h : parseSave source with
  | ok save =>
    refine ⟨fun _ => (note _ _).reported (reported_observe _), ?_⟩
    have hgauges : (w.replaceBy save).gauges = w.gauges := by
      rw [replaceBy, hadopt, hplace]
    show ((w.replaceBy save).gauges.loaded true).blockWrites = w.gauges.blockWrites
    rw [hgauges]
    exact (Gauges.SameStock.loaded w.gauges true).blockWrites
  | error failure =>
    obtain ⟨e, event⟩ := failure
    dsimp only
    split
    · exact refl w
    · cases event with
      | none => exact books ⟨rfl, rfl⟩ (.loaded w.gauges false)
      | some event => exact books ⟨rfl, rfl⟩ (.loaded w.gauges false)

end Silent

end World

/-! ## The books -/

namespace Tally

/-- A tally of a world whose report is up to date and counts as many writes as the tally. -/
structure Books (t : Tally) (w : World) : Prop where
  world : t.world = w
  reported : w.Reported
  writes : w.gauges.blockWrites = t.writes

namespace Books

variable {t : Tally} {w : World} (hb : t.Books w)
include hb

theorem along {f : World → World} (hf : w.Silent (f w)) : (t.along f).Books (f w) where
  world := congrArg f hb.world
  reported := hf.reported hb.reported
  writes := hf.writes.trans hb.writes

/-- A write is counted once on either side. -/
theorem setBlock (p : Coord) (id : BlockId) : (t.setBlock p id).Books (w.setBlock p id) := by
  let f : ChunkData → ChunkData := fun d =>
    { d with chunk := d.chunk.setBlock p.place id, lastTouched := w.tick }
  let v := (w.ensureChunk p.parent).2.modifySlot (w.ensureChunk p.parent).1 f
  have hv : w.Silent v := .mark w p.parent f
  have hrefresh := World.Silent.refresh { v with gauges := v.gauges.blockWritten } p
  have hset : w.setBlock p id = World.refresh { v with gauges := v.gauges.blockWritten } p := rfl
  have hr := hv.reported hb.reported
  refine ⟨by rw [Tally.setBlock, hb.world], ?_, ?_⟩
  · rw [hset]
    exact hrefresh.reported ⟨hr.chunks, hr.capacity, hr.freeSlots, hr.megachunks⟩
  · rw [hset, hrefresh.writes]
    show v.gauges.blockWrites + 1 = t.writes + 1
    rw [hv.writes, hb.writes]

theorem damageBlock (r : Registry) (p : Coord) (amount : Float32) :
    (t.damageBlock r p amount).Books (w.damageBlock r p amount).2 := by
  unfold Tally.damageBlock
  rw [hb.world]
  cases hs : World.strike r (w.block? p) amount with
  | none =>
    rw [World.damageBlock, hs]
    exact hb
  | broken =>
    rw [World.damageBlock, hs]
    exact (hb.setBlock p air).along (.note _ _)
  | damaged damage => exact hb.along (.damageBlock hs)

theorem act (a : Action) : (Tally.act a t).Books (a.apply w) := by
  cases a with
  | setBlock p id => exact hb.setBlock p id
  | damageBlock r p amount => exact hb.damageBlock r p amount
  | markChunk c priority => exact hb.along (.mark w c _)
  | markGenerated c => exact hb.along (.mark w c _)
  | advanceTick => exact hb.along (.books ⟨rfl, rfl⟩ (.refl _))
  | reset => exact hb.along (.reset w)
  | unload mega => exact hb.along (.unload w mega)
  | ask q => exact hb.along (.ask q w)

end Books

/-- A landscape is written to a tally as it is to its world. -/
theorem target_matches : Target.Matches Books target .world where
  setBlock hb p id := by
    simp only [target, Target.world]
    exact hb.setBlock p id
  markGenerated hb c := by
    simp only [target, Target.world]
    exact hb.along (.mark _ c _)
  isGenerated hb c := by simp only [target, Target.world, hb.world]

/-- One move on a tally and on its world. -/
theorem Books.apply {t : Tally} {w : World} (hb : t.Books w) (m : Move) :
    (Tally.apply m t).Books (m.apply w) := by
  cases m with
  | act a => exact hb.act a
  | markCached c => exact hb.along (.markCached w c)
  | save savedAt archive => exact hb.along (.saveTo w savedAt _ archive)
  | load source => exact hb.along (.loadFrom w source)
  | generateChunk g chunk => exact target_matches.generateChunk g chunk hb
  | generateSpawn g radius => exact target_matches.generateSpawn g radius hb

theorem Books.run {t : Tally} {w : World} (hb : t.Books w) (moves : List Move) :
    (Tally.run moves t).Books (Move.run moves w) := by
  induction moves generalizing t w with
  | nil => exact hb
  | cons m moves ih => exact ih (hb.apply m)

end Tally

/-- After any moves of a new world its gauges show the slots in use, all slots, the free slots and
the megachunks that there are, and its counter of writes shows how often a block has been put: by
itself, where one was dug away, or by the generator. -/
theorem run_new_gauges (seed : Int64) (id : String) (createdAt : Data.Timestamp)
    (compression : String) (moves : List Move) :
    let w := Move.run moves (.new seed id createdAt compression)
    let t := Tally.run moves ⟨.new seed id createdAt compression, 0⟩
    t.world = w
      ∧ w.gauges.chunks = w.arena.live
      ∧ w.gauges.capacity = w.arena.size
      ∧ w.gauges.freeSlots = w.arena.freeCount
      ∧ w.gauges.megachunks = w.megachunkCount
      ∧ w.gauges.blockWrites = t.writes := by
  intro w t
  have hnew : Tally.Books ⟨.new seed id createdAt compression, 0⟩
      (.new seed id createdAt compression) :=
    ⟨rfl, World.reported_new seed id createdAt compression, rfl⟩
  have hb : t.Books w := hnew.run moves
  exact ⟨hb.world, hb.reported.chunks, hb.reported.capacity, hb.reported.freeSlots,
    hb.reported.megachunks, hb.writes⟩

end BlockWorld
