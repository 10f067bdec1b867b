import BlockWorld.Space.Box
import BlockWorld.World.Basic
/-!
Questions about a world in space: the first block on a ray, and the way a box has to move to be
clear of all blocks. They change nothing but counts.
-/
namespace BlockWorld.World

open Grid Space

/-! ## Rays -/

/-- The distance between two samples of a ray. -/
def rayStep : Float := 0.01

/-- The sample with number `i` of a ray. -/
@[inline] def sample (origin direction : Point Float) (i : Nat) : Point Float :=
  origin + direction.scale (i.toFloat * rayStep)

/-- The first of `n` samples from number `i` on that lies in a block: its cell, and the cell of the
sample before it, which for the first is `previous`. -/
def firstHit (w : World) (origin direction : Point Float) :
    (n i : Nat) → (previous : Point Float) → Option (Coord × Coord)
  | 0, _, _ => none
  | n + 1, i, previous =>
    let p := sample origin direction i
    let cell := p.floor
    if (w.block? cell).isSome then some (cell, previous.floor)
    else firstHit w origin direction n (i + 1) p

/-- How many steps a ray of a given length takes. -/
def raySteps (length : Float) : Nat := (length / rayStep).toInt64.toNatClampNeg

/-- Follows a ray to the first block: gives its cell, or the cell before it if `before` is set, in which a
block could be put. Without a direction or a positive length there is no ray. Stands for `World.Raycast`. -/
def raycast (w : World) (origin direction : Point Float) (length : Float) (before : Bool) :
    Option Coord × World :=
  if direction.length == 0 || length ≤ 0 then (none, w)
  else
    let hit := firstHit w origin direction.normalized (raySteps length + 1) 0 origin
    (hit.map fun (cell, previous) => if before then previous else cell,
      { w with gauges := w.gauges.ray hit.isSome })

/-! ## Boxes -/

variable {α : Type} [Scalar α]

/-- A box on its way out of blocks, and the sum of the pushes so far. -/
structure Escape (α : Type) where
  box : Box α
  total : Point α

/-- Pushes the box out of one cell, if there is a block (one round of `World.Collide`). -/
@[specialize] def Escape.pushFrom (w : World) (s : Escape α) (cell : Coord) : Escape α :=
  if (w.block? cell).isSome then
    match (Box.unitCube cell).separate s.box with
    | some push => ⟨s.box.translate push, s.total + push⟩
    | none => s
  else s

/-- Pushes a box out of the blocks around it, cell by cell by `x`, then `y`, then `z` (all rounds of
`World.Collide`). -/
@[specialize] def escape (w : World) (box : Box α) : Escape α :=
  let lo := box.min.floor - ⟨1, 1, 1⟩
  let hi := box.max.ceil
  (span lo.x hi.x).foldl (fun s x =>
    (span lo.y hi.y).foldl (fun s y =>
      (span lo.z hi.z).foldl (fun s z => s.pushFrom w ⟨x, y, z⟩) s) s) ⟨box, .zero⟩

/-- How a box has to move to be clear of the blocks around it, and whether it has to move at all
(`World.Collide`). -/
@[specialize] def collide (w : World) (box : Box α) : Point α × Bool × World :=
  let total := (escape w box).total
  let moved := !total.isZero
  (total, moved, { w with gauges := w.gauges.collision moved })

end BlockWorld.World
