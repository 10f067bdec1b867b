import Std.Data.HashMap
import BlockWorld.Data.Timestamp
import BlockWorld.Megachunk.Basic
import BlockWorld.World.Event
import BlockWorld.World.Gauges
/-!
The world: megachunks by their coordinates, with all chunks in one arena. Chunks come into being
when they are first written to; everything else is air.
-/
namespace BlockWorld

open Grid Block

/-- A world of blocks. -/
structure World where
  megachunks : Std.HashMap Coord Megachunk
  arena : Arena
  /-- The seed of the generator. -/
  seed : Int64
  id : String
  createdAt : Data.Timestamp
  tick : UInt64
  /-- How archive files of the world are compressed. -/
  compression : String
  gauges : World.Gauges
  /-- What happened, the latest event first. -/
  journal : List World.Event

namespace World

/-- A world without chunks (`NewWorld`). -/
def new (seed : Int64) (id : String) (createdAt : Data.Timestamp) (compression : String) : World :=
  ⟨∅, .empty, seed, id, createdAt, 0, compression, .zero, []⟩

instance : Inhabited World := ⟨new 0 "" .zero ""⟩

/-! ## Looking -/

/-- The handle of a chunk. -/
@[inline] def handle? (w : World) (chunk : Coord) : Option Nat :=
  match w.megachunks[chunk.parent]? with
  | some m => m.handle? chunk.place
  | none => none

/-- The data of a chunk (`World.GetChunk`). -/
@[inline] def chunk? (w : World) (chunk : Coord) : Option ChunkData :=
  match w.handle? chunk with
  | some h => w.arena.get? h
  | none => none

/-- The block at a position, unless it is air (`World.GetBlock`). -/
@[inline] def block? (w : World) (p : Coord) : Option Cell :=
  match w.chunk? p.parent with
  | some d => d.chunk.block? p.place
  | none => none

/-- Whether the generator has filled a chunk (`World.IsGenerated`). -/
def isGenerated (w : World) (chunk : Coord) : Bool :=
  match w.chunk? chunk with
  | some d => d.generated
  | none => false

/-- The number of megachunks (`World.MegaChunkCount`). -/
def megachunkCount (w : World) : Nat := w.megachunks.size

/-- The number of chunks (`World.ChunkCount`). -/
def chunkCount (w : World) : Nat := w.arena.live

/-- The coordinates of the megachunks, in order (`World.MegaChunkCoords`). -/
def coords (w : World) : List Coord := w.megachunks.keys.mergeSort Coord.le

/-! ## Keeping the books -/

/-- Writes an event into the journal. -/
def note (w : World) (e : Event) : World := { w with journal := e :: w.journal }

/-- The events since the journal was last taken, in the order in which they happened. -/
def events (w : World) : List Event := w.journal.reverse

/-- The world with an empty journal. -/
def forgetEvents (w : World) : World := { w with journal := [] }

/-- Reports the state of the storage (`World.observe`). -/
def observe (w : World) : World :=
  { w with gauges := w.gauges.observe w.arena w.megachunks.size }

/-! ## Reaching chunks -/

/-- Changes the data behind a handle. -/
@[inline] def modifySlot (w : World) (h : Nat) (f : ChunkData → ChunkData) : World :=
  { w with arena := w.arena.modify h f }

/-- Makes a megachunk unless it is there. -/
def ensureMegachunk (w : World) (mega : Coord) : World :=
  if w.megachunks.contains mega then w
  else { w with megachunks := w.megachunks.insert mega (.empty mega) }.note (.megachunkCreated mega)

/-- Puts a new chunk into a megachunk that is there. -/
def createChunk (w : World) (chunk : Coord) : Nat × World :=
  let (h, arena) := w.arena.allocate
  let w := { w with
    arena
    megachunks := w.megachunks.modify chunk.parent fun m => m.place chunk.place h }
  (h, (w.note (.chunkCreated chunk)).observe)

/-- The handle of a chunk, which is made if it is not there (`World.chunkAt`). -/
def ensureChunk (w : World) (chunk : Coord) : Nat × World :=
  match w.handle? chunk with
  | some h => (h, w)
  | none => (w.ensureMegachunk chunk.parent).createChunk chunk

end World

end BlockWorld
