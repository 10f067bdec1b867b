import BlockWorld.Fault
import BlockWorld.Log.Level
import BlockWorld.Terrain.Landscape
import BlockWorld.World.Edit
/-!
Filling chunks with a landscape. The chunks live in anything that takes blocks and remembers which
chunks have been filled; a world is one such target, and it never refuses a block.
-/
namespace BlockWorld.Terrain

open Grid Block

/-- What a landscape is written to. A target may refuse a block for a reason of its own. -/
structure Target (σ ε : Type) where
  setBlock : σ → Coord → BlockId → σ × Option ε
  markGenerated : σ → Coord → σ
  isGenerated : σ → Coord → Bool

/-- A world takes every block. -/
def Target.world : Target World Empty where
  setBlock w p id := (w.setBlock p id, none)
  markGenerated := World.markGenerated
  isGenerated := World.isGenerated

/-- A chunk could not be filled because the target refused a block. -/
structure GenerateError (ε : Type) where
  chunk : Coord
  cause : ε

/-- The wording of a refused chunk. -/
def GenerateError.message {ε : Type} [Fault ε] (e : GenerateError ε) : String :=
  "generate chunk " ++ e.chunk.text ++ ": " ++ Fault.message e.cause

instance {ε : Type} [Fault ε] : Fault (GenerateError ε) where
  message := GenerateError.message
  reasons e := Fault.reasons e.cause

/-- What the generator tells the log. -/
inductive Notice where
  | chunkFilled (chunk : Coord)
  | spawnFilled (count : Nat) (radius : Int64)
  deriving DecidableEq, Repr

/-- The line of the log for a notice. -/
def Notice.message : Notice → Log.Message
  | .chunkFilled chunk => ⟨.trace, "Сгенерирован чанк " ++ chunk.text⟩
  | .spawnFilled count radius =>
    ⟨.info, "Сгенерировано " ++ toString count ++ " чанков вокруг точки появления (радиус " ++
      Text.integer radius ++ ")"⟩

variable {σ ε : Type}

/-- Makes writes until one is refused. -/
@[specialize] def writeAll (t : Target σ ε) : List Write → σ → σ × Option ε
  | [], s => (s, none)
  | (p, id) :: rest, s =>
    match t.setBlock s p id with
    | (s, none) => writeAll t rest s
    | (s, some e) => (s, some e)

/-- Fills a chunk unless it has been filled before; tells whether it did (`Generator.GenerateChunk`). -/
@[specialize] def generateChunk (t : Target σ ε) (g : Landscape) (chunk : Coord) (s : σ) :
    σ × Except (GenerateError ε) Bool :=
  if t.isGenerated s chunk then (s, .ok false)
  else
    match writeAll t (g.chunkWrites chunk) s with
    | (s, some e) => (s, .error ⟨chunk, e⟩)
    | (s, none) => (t.markGenerated s chunk, .ok true)

/-- The chunks that are filled around the origin: a square of columns up to the highest chunk. -/
def spawnChunks (g : Landscape) (radius : Int64) : List Coord :=
  let top := floorDiv g.maxHeight edge
  (span (-radius) radius).flatMap fun x =>
    (span (-radius) radius).flatMap fun z =>
      (span 0 top).map fun y => ⟨x, y, z⟩

/-- What filling several chunks did: the target, the chunks filled, and why it stopped early. -/
structure Filling (σ ε : Type) where
  target : σ
  filled : List Coord
  error : Option (GenerateError ε)

/-- Fills chunks one after the other until a block is refused. `filled` are those filled before,
the latest first. -/
@[specialize] def generateChunks (t : Target σ ε) (g : Landscape) :
    (filled : List Coord) → List Coord → σ → Filling σ ε
  | filled, [], s => ⟨s, filled.reverse, none⟩
  | filled, chunk :: rest, s =>
    match generateChunk t g chunk s with
    | (s, .error e) => ⟨s, filled.reverse, some e⟩
    | (s, .ok true) => generateChunks t g (chunk :: filled) rest s
    | (s, .ok false) => generateChunks t g filled rest s

/-- Fills the chunks around the origin (`Generator.GenerateSpawn`). -/
@[specialize] def generateSpawn (t : Target σ ε) (g : Landscape) (radius : Int64) (s : σ) :
    Filling σ ε :=
  generateChunks t g [] (spawnChunks g radius) s

/-- What the log says about the chunks around the origin. -/
def Filling.notices (f : Filling σ ε) (radius : Int64) : List Notice :=
  f.filled.map .chunkFilled ++
    (if f.error.isSome then [] else [.spawnFilled f.filled.length radius])

end BlockWorld.Terrain
