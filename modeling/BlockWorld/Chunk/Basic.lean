import BlockWorld.Block.Registry
import BlockWorld.Fault
import BlockWorld.Grid.Face
import BlockWorld.Grid.Local
/-!
Chunks: cubes of cells. A cell has a block type, a damage from 0 to 1 and a cached set of visible
faces. A chunk also remembers whether the picture drawn from it is still up to date.
-/
namespace BlockWorld

open Grid Block

/-- What a chunk holds at one place. -/
structure Cell where
  kind : BlockId
  damage : Float32
  faces : FaceMask
  deriving Repr, Inhabited

namespace Cell

/-- A cell without a block. -/
def empty : Cell := ⟨air, 0, .unknown⟩

/-- An undamaged block. -/
def fresh (id : BlockId) : Cell := ⟨id, 0, .unknown⟩

/-- Whether a cell has no block (`Block.IsAir`). -/
def isAir (c : Cell) : Bool := c.kind == air

end Cell

/-- A cube of cells. -/
structure Chunk where
  cells : Vector Cell volume
  /-- The picture drawn from the chunk is up to date. -/
  cached : Bool

/-- A place outside a chunk was given for an edit. -/
inductive Chunk.EditError where
  | setBlock (p : Coord)
  | setDamage (p : Coord)
  deriving DecidableEq, Repr

/-- The wording of a refused edit. -/
def Chunk.EditError.message (e : Chunk.EditError) : String :=
  let place (p : Coord) : String :=
    "(" ++ Text.integer p.x ++ ", " ++ Text.integer p.y ++ ", " ++ Text.integer p.z ++ ")"
  match e with
  | .setBlock p => "chunk set block " ++ place p ++ ": coordinates out of range"
  | .setDamage p => "chunk set damage " ++ place p ++ ": coordinates out of range"

instance : Fault Chunk.EditError := ⟨Chunk.EditError.message, fun _ => [.outOfRange]⟩

namespace Chunk

/-- A chunk of air (`NewChunk`). -/
def empty : Chunk := ⟨Vector.replicate volume Cell.empty, false⟩

instance : Inhabited Chunk := ⟨empty⟩

/-- The cell at a place. -/
@[inline] def cell (c : Chunk) (l : Local) : Cell := c.cells.get l.index

/-- The block at a place, unless it is air. -/
@[inline] def block? (c : Chunk) (l : Local) : Option Cell :=
  let b := c.cell l
  if b.isAir then none else some b

/-- Replaces the cell at a place. -/
@[inline] def setCell (c : Chunk) (l : Local) (b : Cell) : Chunk :=
  { c with cells := c.cells.set l.index.val b l.index_lt }

/-- Puts an undamaged block at a place. The picture is out of date afterwards. -/
def setBlock (c : Chunk) (l : Local) (id : BlockId) : Chunk :=
  { c.setCell l (.fresh id) with cached := false }

/-- Brings a damage into the range from 0 to 1. -/
def clampDamage (d : Float32) : Float32 :=
  if d < 0 then 0 else if d > 1 then 1 else d

/-- Sets the damage at a place. The picture is out of date afterwards. -/
def setDamage (c : Chunk) (l : Local) (d : Float32) : Chunk :=
  let b := c.cell l
  { c.setCell l { b with damage := clampDamage d } with cached := false }

/-- Forgets the visible faces at a place. -/
def resetFaces (c : Chunk) (l : Local) : Chunk :=
  let b := c.cell l
  c.setCell l { b with faces := .unknown }

/-- Marks the picture as out of date (`Chunk.InvalidateCache`). -/
def invalidate (c : Chunk) : Chunk := { c with cached := false }

/-- Marks the picture as up to date (`Chunk.MarkCached`). -/
def markCached (c : Chunk) : Chunk := { c with cached := true }

/-- The number of cells with a block (`Chunk.CountSolid`). -/
def countSolid (c : Chunk) : Nat :=
  c.cells.foldl (fun n b => if b.isAir then n else n + 1) 0

/-! ## Places given as positions -/

/-- Puts a block at a position, which has to lie in the chunk (`Chunk.SetBlock`). -/
def setBlockAt (c : Chunk) (p : Coord) (id : BlockId) : Except EditError Chunk :=
  match p.local? with
  | some l => .ok (c.setBlock l id)
  | none => .error (.setBlock p)

/-- Sets the damage at a position, which has to lie in the chunk (`Chunk.SetDamage`). -/
def setDamageAt (c : Chunk) (p : Coord) (d : Float32) : Except EditError Chunk :=
  match p.local? with
  | some l => .ok (c.setDamage l d)
  | none => .error (.setDamage p)

/-- The block at a position, if it lies in the chunk and is not air (`Chunk.GetBlock`). -/
def blockAt? (c : Chunk) (p : Coord) : Option Cell := p.local?.bind c.block?

/-- Forgets the visible faces at a position; one outside the chunk changes nothing (`Chunk.ResetFaces`). -/
def resetFacesAt (c : Chunk) (p : Coord) : Chunk :=
  match p.local? with
  | some l => c.resetFaces l
  | none => c

end Chunk

end BlockWorld
