import BlockWorld.Terrain.Landscape
import BlockWorld.Terrain.Noise
/-!
The landscape of a seed. Heights and biomes come from noise; trees are drawn from a random source
of their own for every chunk.
-/
namespace BlockWorld.Terrain

open Grid

/-- The settings of a landscape, and its noise. -/
structure Generator where
  seed : Int64
  noiseScale : Float
  biomeScale : Float
  /-- How likely a tree is on the plains. -/
  forestDensity : Float
  baseHeight : Int64
  amplitude : Int64
  waterLevel : Int64
  heightNoise : Noise
  biomeNoise : Noise

namespace Generator

/-- The usual settings (`NewGenerator`). -/
def ofSeed (seed : Int64) : Generator :=
  ⟨seed, 0.05, 0.02, 0.05, 24, 16, 20, .ofSeed seed, .ofSeed (seed + 42)⟩

/-- The height of a column on the scale from 0 to 1 (`Generator.heightNoise`). -/
def level (g : Generator) (x z : Int64) : Float :=
  g.heightNoise.value (x.toFloat * g.noiseScale) (z.toFloat * g.noiseScale)

/-- The height of the surface of a column, at least one (`Generator.HeightAt`). -/
def height (g : Generator) (x z : Int64) : Int64 :=
  let h := g.baseHeight + ((g.level x z - 0.5) * 2 * g.amplitude.toFloat).toInt64
  if h < 1 then 1 else h

/-- The biome of a column (`Generator.BiomeAt`). -/
def biome (g : Generator) (x z : Int64) : Biome :=
  let level := g.level x z
  if level < 0.3 then .water
  else if level > 0.75 then .mountains
  else
    let v := g.biomeNoise.value (x.toFloat * g.biomeScale) (z.toFloat * g.biomeScale)
    if v < 0.35 then .desert else if v > 0.65 then .forest else .plains

/-- How likely a tree is, where trees grow at all. -/
def treeChance? (g : Generator) : Biome → Option Float
  | .forest => some 0.15
  | .plains => some g.forestDensity
  | _ => none

/-- The seed of the random source of a chunk. -/
def chunkSeed (g : Generator) (chunk : Coord) : Int64 :=
  g.seed + chunk.x * 31 + chunk.y * 13 + chunk.z * 17

/-- Draws the tree of a column (`Generator.wantsTree`). -/
def drawTrunk (g : Generator) (biome : Biome) (r : Random) : Option (Fin 3) × Random :=
  match g.treeChance? biome with
  | none => (none, r)
  | some chance =>
    let (x, r) := r.float
    if x < chance then
      let (extra, r) := r.belowThree
      (some extra, r)
    else (none, r)

/-- Draws the trees of a chunk column by column. Nothing is drawn where no tree may stand. -/
def trunks (g : Generator) (mayGrow : Int64 → Bool) (chunk : Coord) : Array (Option (Fin 3)) :=
  let origin := chunk.scale edge
  (Landscape.columns.foldl (fun (done, r) (_, dx, dz) =>
    let x := origin.x + dx
    let z := origin.z + dz
    if mayGrow (g.height x z) then
      let (trunk, r) := g.drawTrunk (g.biome x z) r
      (done.push trunk, r)
    else (done.push none, r)) (#[], Random.ofSeed (g.chunkSeed chunk))).1

/-- The land of the settings before there are trees on it. -/
def bareLand (g : Generator) : Landscape where
  height := g.height
  biome := g.biome
  trunks _ := #[]
  baseHeight := g.baseHeight
  amplitude := g.amplitude
  waterLevel := g.waterLevel

/-- The landscape of the settings. -/
def landscape (g : Generator) : Landscape :=
  { g.bareLand with trunks := fun chunk => g.trunks (g.bareLand.mayGrow chunk) chunk }

end Generator

end BlockWorld.Terrain
