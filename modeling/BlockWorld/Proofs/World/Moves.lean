import BlockWorld.Terrain.Generate
import BlockWorld.World.Query
import BlockWorld.World.Save
/-!
What can happen to a world. Questions leave all blocks as they are, actions are the edits of blocks
and chunks, and moves are all of these together with saving, loading and the generator. A world that
has come about by moves from a new one is what the program can ever hold.

There are no proofs here. The definitions are those that statements about every run share: a run is a fold of
moves, so that a proof about runs is a lemma about one move and an induction. A move carries all that it
depends on, the registry, the landscape or the archive, and two moves of one run may carry different ones.
-/
namespace BlockWorld

open Grid Block

/-- What can be asked of a world. -/
inductive Question where
  | refresh (p : Coord)
  | visibleFaces (r : Registry) (p : Coord)
  | block? (p : Coord)
  | chunk? (c : Coord)
  | raycast (origin direction : Space.Point Float) (length : Float) (before : Bool)
  | collide (box : Space.Box Float)

/-- The world after a question, which may have changed what it remembers and counts. -/
def Question.apply : Question → World → World
  | refresh p, w => w.refresh p
  | visibleFaces r p, w => (w.visibleFaces r p).2
  -- To look at a block or a chunk is to read it: there is no second world.
  | block? _, w => w
  | chunk? _, w => w
  | raycast origin direction length before, w => (w.raycast origin direction length before).2
  | collide box, w => (w.collide box).2.2

/-- What can be done to a world. -/
inductive Action where
  | setBlock (p : Coord) (id : BlockId)
  | damageBlock (r : Registry) (p : Coord) (amount : Float32)
  | markChunk (c : Coord) (priority : Int64)
  | markGenerated (c : Coord)
  | advanceTick
  | reset
  | unload (mega : Coord)
  | ask (q : Question)

namespace Action

/-- An action on a world. -/
def apply : Action → World → World
  | setBlock p id, w => w.setBlock p id
  | damageBlock r p amount, w => (w.damageBlock r p amount).2
  | markChunk c priority, w => w.markChunk c priority
  | markGenerated c, w => w.markGenerated c
  | advanceTick, w => w.advanceTick
  | reset, w => w.reset
  | unload mega, w => (w.unload mega).2
  | ask q, w => q.apply w

/-- Actions one after the other on a world. -/
def run (actions : List Action) (w : World) : World := actions.foldl (fun w a => a.apply w) w

end Action

/-- Everything that can happen to a world. -/
inductive Move where
  | act (a : Action)
  | markCached (c : Coord)
  | save (savedAt : Data.Timestamp) (archive : Save.MemoryArchive)
  | load (source : Save.Source)
  | generateChunk (g : Terrain.Landscape) (chunk : Coord)
  | generateSpawn (g : Terrain.Landscape) (radius : Int64)

namespace Move

/-- The world after a move. -/
def apply : Move → World → World
  | act a, w => a.apply w
  | markCached c, w => w.markCached c
  | save savedAt archive, w => (w.saveTo savedAt Save.MemoryArchive.sink archive).2.2
  | load source, w => (w.loadFrom source).2
  | generateChunk g chunk, w => (Terrain.generateChunk .world g chunk w).1
  | generateSpawn g radius, w => (Terrain.generateSpawn .world g radius w).target

/-- Moves one after the other. -/
def run (moves : List Move) (w : World) : World := moves.foldl (fun w m => m.apply w) w

end Move

end BlockWorld
