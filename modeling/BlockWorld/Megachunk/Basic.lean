import BlockWorld.Arena
/-!
Megachunks: cubes of places for chunks, most of which stay empty. A megachunk holds the handles of
its chunks; the chunks themselves live in an arena.
-/
namespace BlockWorld

open Grid

/-- A cube of places for chunks. -/
structure Megachunk where
  coord : Coord
  slots : Vector (Option Nat) volume
  /-- The number of places with a chunk. -/
  count : Nat

/-- Why a chunk cannot be created in a megachunk. -/
inductive Megachunk.CreateError where
  /-- The chunk belongs to another megachunk. -/
  | foreign (chunk owner here : Coord)
  /-- The place is taken. -/
  | exists (chunk : Coord)
  deriving DecidableEq, Repr

/-- The wording of a refused creation. -/
def Megachunk.CreateError.message : Megachunk.CreateError → String
  | .foreign chunk owner here =>
    "chunk " ++ chunk.text ++ " belongs to megachunk " ++ owner.text ++ ", not " ++ here.text ++
      ": coordinates out of range"
  | .exists chunk => "create chunk " ++ chunk.text ++ ": chunk already exists"

/-- The reason of a refused creation. -/
def Megachunk.CreateError.reasons : Megachunk.CreateError → List Reason
  | .foreign _ _ _ => [.outOfRange]
  | .exists _ => [.chunkExists]

instance : Fault Megachunk.CreateError :=
  ⟨Megachunk.CreateError.message, Megachunk.CreateError.reasons⟩

namespace Megachunk

/-- A megachunk without chunks (`NewMegaChunk`). -/
def empty (coord : Coord) : Megachunk := ⟨coord, Vector.replicate volume none, 0⟩

instance : Inhabited Megachunk := ⟨empty .origin⟩

/-- The handle at a place. -/
@[inline] def handle? (m : Megachunk) (l : Local) : Option Nat := m.slots.get l.index

/-- Puts a handle at an empty place. -/
def place (m : Megachunk) (l : Local) (h : Nat) : Megachunk :=
  { m with slots := m.slots.set l.index.val (some h) l.index_lt, count := m.count + 1 }

/-- Creates the chunk with a given coordinate on the grid of chunks (`MegaChunk.CreateChunk`). -/
def create (m : Megachunk) (a : Arena) (chunk : Coord) :
    Except CreateError (Nat × Megachunk × Arena) :=
  if chunk.parent ≠ m.coord then .error (.foreign chunk chunk.parent m.coord)
  else if (m.handle? chunk.place).isSome then .error (.exists chunk)
  else
    let (h, a) := a.allocate
    .ok (h, m.place chunk.place h, a)

/-- The data of the chunk at a place. -/
@[inline] def chunk? (m : Megachunk) (a : Arena) (l : Local) : Option ChunkData :=
  (m.handle? l).bind a.get?

/-- The places with a chunk and their handles, in the order of the places. -/
def occupied (m : Megachunk) : List (Local × Nat) :=
  (List.finRange volume).filterMap fun i => m.slots[i].map fun h => (Local.ofIndex i, h)

/-- The places with a chunk and the data of the chunks, in the order of the places
(`MegaChunk.ForEachChunk`). -/
def chunks (m : Megachunk) (a : Arena) : List (Local × ChunkData) :=
  m.occupied.map fun (l, h) => (l, a.slot h)

/-- Frees the handles of some chunks; bad handles are skipped and reported. -/
def freeAll (a : Arena) : List Nat → Arena × List BadHandle
  | [] => (a, [])
  | h :: rest =>
    match a.freeHandle h with
    | .ok a => freeAll a rest
    | .error e =>
      let (a, others) := freeAll a rest
      (a, e :: others)

/-- Gives all chunks back to the arena (`MegaChunk.Release`). -/
def release (m : Megachunk) (a : Arena) : Megachunk × Arena × List BadHandle :=
  let (a, bad) := freeAll a (m.occupied.map (·.2))
  (empty m.coord, a, bad)

end Megachunk

end BlockWorld
