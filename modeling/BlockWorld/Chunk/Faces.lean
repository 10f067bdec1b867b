import BlockWorld.Chunk.Basic
/-!
Visible faces of the blocks in a chunk. A face is visible when the neighbour behind it is missing,
or transparent and of another type. The set of visible faces of a block is computed when it is
first asked for and kept until it is reset.
-/
namespace BlockWorld.Chunk

open Grid Block

/-- Whether a face of a block of type `id` is visible with a given neighbour behind it (`faceExposed`). -/
def faceExposed (r : Registry) (id : BlockId) (neighbour : Option BlockId) : Bool :=
  match neighbour with
  | none => true
  | some other => other ≠ id && r.isTransparent other

/-- The type of the block behind a face: from the chunk itself where the neighbour lies in it, else
from `outside`, which is asked for the position on the grid of blocks. `origin` is the position of
the first cell of the chunk. -/
def neighbour? (c : Chunk) (p origin : Coord) (outside : Coord → Option BlockId) (f : Face) :
    Option BlockId :=
  let n := p + f.offset
  match n.local? with
  | some l => (c.block? l).map (·.kind)
  | none => outside (origin + n)

/-- The positions outside the chunk that the neighbours of a place have, in the order of faces. -/
def outsideNeighbours (l : Local) (origin : Coord) : List Coord :=
  (Face.all.map (l.toCoord + ·.offset)).filter (!·.isLocal) |>.map (origin + ·)

/-- The visible faces of a block of type `id` at a place, computed from its neighbours. -/
def freshMask (r : Registry) (c : Chunk) (l : Local) (id : BlockId) (origin : Coord)
    (outside : Coord → Option BlockId) : FaceMask :=
  .ofTest fun f => faceExposed r id (c.neighbour? l.toCoord origin outside f)

/-- The visible faces at a place, and the chunk that remembers them. Air has no faces. Stands for
`Chunk.VisibleFaces`. -/
def visibleFaces (r : Registry) (c : Chunk) (l : Local) (origin : Coord)
    (outside : Coord → Option BlockId) : FaceMask × Chunk :=
  let b := c.cell l
  if b.isAir then (.unknown, c)
  else if b.faces.isValid then (b.faces.visible, c)
  else
    let mask := freshMask r c l b.kind origin outside
    (mask, c.setCell l { b with faces := mask.validated })

/-- Whether asking for the visible faces at a place computes them anew. -/
def computesFaces (c : Chunk) (l : Local) : Bool :=
  let b := c.cell l
  !b.isAir && !b.faces.isValid

end BlockWorld.Chunk
