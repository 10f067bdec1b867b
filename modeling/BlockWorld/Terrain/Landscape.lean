import BlockWorld.Block.Registry
import BlockWorld.Grid.Face
import BlockWorld.Grid.Local
/-!
Landscapes: the height and the biome of every column of blocks, and where trees stand. From these
follow the blocks of every chunk, as a list of writes in a fixed order.
-/
namespace BlockWorld.Terrain

open Grid Block

/-- What grows in a column. -/
inductive Biome where
  | plains | desert | forest | mountains | water
  deriving DecidableEq, Repr

/-- The shape of the land. `trunks` tells for a chunk and for each of its columns, in the order of
`Landscape.columns`, whether a tree stands there and how much higher than three blocks its trunk is. -/
structure Landscape where
  height : (x z : Int64) → Int64
  biome : (x z : Int64) → Biome
  trunks : (chunk : Coord) → Array (Option (Fin 3))
  baseHeight : Int64
  amplitude : Int64
  waterLevel : Int64

/-- The height of the highest trunks. -/
def maxTrunk : Int64 := 5

/-- A block and where it is put. -/
abbrev Write := Coord × BlockId

namespace Landscape

/-- No block lies above this height, crowns of trees included (`Generator.MaxHeight`). -/
def maxHeight (g : Landscape) : Int64 := g.baseHeight + g.amplitude + maxTrunk + 2

/-- The block at height `y` of a column with its surface at `top`, trees left out (`Generator.blockAt`). -/
def blockAt (g : Landscape) (y top : Int64) (biome : Biome) : BlockId :=
  if y = 0 then bedrock
  else if y > top then if y ≤ g.waterLevel then water else air
  else if y < top - 3 then stone
  else
    match biome with
    | .desert => sand
    | .water => sand
    | .mountains => stone
    | _ => if y = top ∧ top ≥ g.waterLevel then grass else dirt

/-- Offsets inside a chunk. -/
def offsets : List Int64 := (List.range 16).map Int64.ofNat

/-- The writes of the part of a column that lies in a chunk. -/
def columnWrites (g : Landscape) (chunk : Coord) (x z : Int64) : List Write :=
  let top := g.height x z
  let biome := g.biome x z
  offsets.filterMap fun dy =>
    let y := chunk.y * edge + dy
    let id := g.blockAt y top biome
    if y < 0 ∨ id = air then none else some (⟨x, y, z⟩, id)

/-- The writes of a tree: a trunk from `base` upward, and a crown around its top (`Generator.placeTree`). -/
def treeWrites (base : Coord) (extra : Fin 3) : List Write :=
  let height := 3 + extra.val
  let trunk := (List.range height).map fun i => (base + ⟨0, Int64.ofNat i, 0⟩, log)
  let crown := base + ⟨0, Int64.ofNat height, 0⟩
  let around := (Face.all.filter (· ≠ .negY)).map fun f => (crown + f.offset, leaves)
  trunk ++ (crown, leaves) :: around

/-- Whether a tree may stand in a column, as seen from a chunk: it belongs to the chunk that holds
the surface, which has to lie above the water. -/
def mayGrow (g : Landscape) (chunk : Coord) (top : Int64) : Bool :=
  top ≥ g.waterLevel && floorDiv top edge = chunk.y

/-- The columns of a chunk, by their numbers and offsets, `z` running fastest. -/
def columns : List (Nat × Int64 × Int64) :=
  (List.range 256).map fun i => (i, Int64.ofNat (i / 16), Int64.ofNat (i % 16))

/-- All writes of a chunk, column by column, each with its tree. -/
def chunkWrites (g : Landscape) (chunk : Coord) : List Write :=
  let origin := chunk.scale edge
  let trunks := g.trunks chunk
  columns.flatMap fun (i, dx, dz) =>
    let x := origin.x + dx
    let z := origin.z + dz
    let top := g.height x z
    let tree :=
      if g.mayGrow chunk top then
        match trunks.getD i none with
        | some extra => treeWrites ⟨x, top + 1, z⟩ extra
        | none => []
      else []
    g.columnWrites chunk x z ++ tree

end Landscape

end BlockWorld.Terrain
