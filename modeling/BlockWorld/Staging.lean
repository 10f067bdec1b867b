import BlockWorld.Save.Disk
import BlockWorld.World.Edit
/-!
# Setting the stage

What a program around the library needs to prepare the state that an operation starts from, and to look
at the state that it leaves:

* `Chunk.fill` and `World.fill` fill a box of a chunk or of a world, and `Grid.cellsBetween` counts the
  cells of the box;
* `Save.Disk.writeSave` puts a whole save onto a disk;
* `Save.Files.listing` shows what a folder holds.

Neither the server nor the tool for saves uses any of them, and nothing is proved about them: each is a
plain repetition of an operation that has its own lemmas (`Chunk.setBlock`, `World.setBlock`, `Save.copy`).
-/
namespace BlockWorld

open Grid Block

/-! ## Boxes -/

/-- How many coordinates lie between two corners, both counted. -/
def Grid.cellsBetween (lo hi : Coord) : Nat :=
  (span lo.x hi.x).length * (span lo.y hi.y).length * (span lo.z hi.z).length

namespace Chunk

/-- Puts a block at positions one after the other, until one lies outside the chunk. `n` have been
put before. -/
def setBlocksAt (id : BlockId) : (n : Nat) → List Coord → Chunk → Chunk × Except EditError Nat
  | n, [], c => (c, .ok n)
  | n, p :: rest, c =>
    match p.local? with
    | some l => setBlocksAt id (n + 1) rest (c.setBlock l id)
    | none => (c, .error (.setBlock p))

/-- Fills a box with a block, `x` running fastest; gives the number of cells. It stops at the first
position outside the chunk. -/
def fill (c : Chunk) (lo hi : Coord) (id : BlockId) : Chunk × Except EditError Nat :=
  let cells := (span lo.z hi.z).flatMap fun z =>
    (span lo.y hi.y).flatMap fun y => (span lo.x hi.x).map fun x => ⟨x, y, z⟩
  setBlocksAt id 0 cells c

end Chunk

/-- Fills a box with a block, `z` running fastest. -/
def World.fill (w : World) (lo hi : Coord) (id : BlockId) : World :=
  (span lo.x hi.x).foldl (fun w x =>
    (span lo.y hi.y).foldl (fun w y =>
      (span lo.z hi.z).foldl (fun w z => w.setBlock ⟨x, y, z⟩ id) w) w) w

/-! ## Disks -/

namespace Save

/-- Writes a save as a whole. -/
def Disk.writeSave (d : Disk) (l : Location) (compression : String) (entries : Entries) :
    Disk × Except ArchiveError Unit :=
  match d.openSink l compression with
  | (d, .error e) => (d, .error e)
  | (d, .ok sink) =>
    let result := copy OpenSink.sink entries.source sink
    match result.error with
    | some e => ((d.abortSink result.sink).1.closeSink result.sink, .error e.cause)
    | none =>
      let (d, finished, _) := d.finishSink result.sink
      (d.closeSink result.sink, finished)

/-- The paths below a folder, relative to it and in order; folders end in a slash. -/
def Files.listing (fs : Files) (folder : String) : List String :=
  let top := (fs.key? folder).getD []
  let below := fs.nodes.filterMap fun (key, node) =>
    if top.isPrefixOf key && key != top then
      let path := "/".intercalate (key.drop top.length)
      some (if node.isFolder then path ++ "/" else path)
    else none
  below.mergeSort (· ≤ ·)

end Save

end BlockWorld
