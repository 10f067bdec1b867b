import BlockWorld.Chunk.Faces
import BlockWorld.World.Basic
/-!
Changing a world: writing blocks, digging, marking chunks, and unloading them. Every written block
makes the pictures of its surroundings out of date.
-/
namespace BlockWorld.World

open Grid Block

/-- Forgets the visible faces at a position, whose chunk has to be drawn anew. -/
def forgetFaces (w : World) (p : Coord) : World :=
  match w.handle? p.parent with
  | some h =>
    w.modifySlot h fun d => { d with chunk := (d.chunk.resetFaces p.place).invalidate }
  | none => w

/-- A position and its six neighbours. -/
def surroundings (p : Coord) : List Coord := p :: Face.all.map (p + ·.offset)

/-- Forgets the visible faces at a position and at its neighbours, also in other chunks
(`World.RefreshBlock`). -/
def refresh (w : World) (p : Coord) : World := (surroundings p).foldl forgetFaces w

/-- Puts an undamaged block at a position (`World.SetBlock`). -/
def setBlock (w : World) (p : Coord) (id : BlockId) : World :=
  let tick := w.tick
  let (h, w) := w.ensureChunk p.parent
  let w := w.modifySlot h fun d =>
    { d with chunk := d.chunk.setBlock p.place id, lastTouched := tick }
  ({ w with gauges := w.gauges.blockWritten }).refresh p

/-- The visible faces of the block at a position, none for air, and the world that remembers them
(`World.VisibleFaces`). -/
def visibleFaces (r : Registry) (w : World) (p : Coord) : FaceMask × World :=
  let chunk := p.parent
  match w.handle? chunk with
  | none => (.unknown, w)
  | some h =>
    let outside (q : Coord) : Option BlockId := (w.block? q).map (·.kind)
    let (mask, c) := (w.arena.slot h).chunk.visibleFaces r p.place (chunk.scale edge) outside
    (mask, w.modifySlot h fun d => { d with chunk := c })

/-- What digging does to a block. -/
inductive Strike where
  /-- There is nothing to dig, or it cannot be dug. -/
  | none
  /-- The block holds, with this damage. -/
  | damaged (damage : Float32)
  | broken

/-- Digs at a block with a given strength (what `World.DamageBlock` decides). -/
def strike (r : Registry) (block : Option Cell) (amount : Float32) : Strike :=
  match block with
  | none => .none
  | some b =>
    let hardness := r.hardness b.kind
    if amount ≤ 0 ∨ hardness < 0 then .none
    else
      let damage := b.damage + amount / hardness
      if damage ≥ 1 then .broken else .damaged damage

/-- Digs at a position; a block whose damage reaches one becomes air (`World.DamageBlock`). -/
def damageBlock (r : Registry) (w : World) (p : Coord) (amount : Float32) : Bool × World :=
  match strike r (w.block? p) amount with
  | .none => (false, w)
  | .broken => (true, (w.setBlock p air).note (.blockBroken p))
  | .damaged damage =>
    match w.handle? p.parent with
    | none => (false, w)
    | some h =>
      let tick := w.tick
      (false, w.modifySlot h fun d =>
        { d with chunk := d.chunk.setDamage p.place damage, lastTouched := tick })

/-- Sets the priority of a chunk, which is made if it is not there (`World.MarkChunk`). -/
def markChunk (w : World) (chunk : Coord) (priority : Int64) : World :=
  let (h, w) := w.ensureChunk chunk
  w.modifySlot h fun d => { d with priority }

/-- Marks a chunk as filled by the generator; it is made if it is not there (`World.MarkGenerated`). -/
def markGenerated (w : World) (chunk : Coord) : World :=
  let (h, w) := w.ensureChunk chunk
  w.modifySlot h fun d => { d with generated := true }

/-- Marks the picture of a chunk as up to date, if the chunk is there. -/
def markCached (w : World) (chunk : Coord) : World :=
  match w.handle? chunk with
  | some h => w.modifySlot h fun d => { d with chunk := d.chunk.markCached }
  | none => w

/-- Lets a tick go by (`World.AdvanceTick`). -/
def advanceTick (w : World) : World := { w with tick := w.tick + 1 }

/-- Removes all chunks. The arena keeps their slots. Stands for `World.Reset`. -/
def reset (w : World) : World :=
  ({ w with megachunks := ∅, arena := w.arena.clear }.observe).note .cleared

/-- Removes a megachunk and gives its chunks back to the arena; tells whether it was there
(`World.UnloadMegaChunk`). -/
def unload (w : World) (mega : Coord) : Bool × World :=
  match w.megachunks[mega]? with
  | none => (false, w)
  | some m =>
    let (_, arena, _) := m.release w.arena
    (true, { w with megachunks := w.megachunks.erase mega, arena }.observe)

end BlockWorld.World
