import BlockWorld.Terrain.Random
/-!
Gradient noise over the plane: a smooth random function, summed over three octaves.
-/
namespace BlockWorld.Terrain

/-- A direction in the plane. -/
structure Gradient where
  x : Float
  y : Float
  deriving Inhabited

/-- A noise function: a permutation of numbers below 256, continued periodically, and a gradient
for each number. -/
structure Noise where
  permutation : Array Nat
  gradients : Array Gradient

namespace Noise

/-- The number of gradients. -/
def period : Nat := 256

/-- A random component of a gradient, from -1 to 1. -/
def component (r : Random) : Float × Random :=
  let (n, r) := r.bits31
  ((Int.subNatNat (n % (2 * period)) period).toInt64.toFloat / 256, r)

/-- The direction of length one. -/
def Gradient.normalized (g : Gradient) : Gradient :=
  let length := (g.x * g.x + g.y * g.y).sqrt
  ⟨g.x / length, g.y / length⟩

/-- Throws `n` components away. -/
def skip : (n : Nat) → Random → Random
  | 0, r => r
  | n + 1, r => skip n (component r).2

/-- Draws `n` gradients. One component before each of them and three after it belong to the noise
on the line and in space and are not used. -/
def drawGradients : (n : Nat) → Array Gradient → Random → Array Gradient × Random
  | 0, done, r => (done, r)
  | n + 1, done, r =>
    let r := skip 1 r
    let (x, r) := component r
    let (y, r) := component r
    drawGradients n (done.push (Gradient.normalized ⟨x, y⟩)) (skip 3 r)

/-- Shuffles numbers by exchanging place `i` with a random one, for `i` from `n` down to one. -/
def shuffle : (n : Nat) → Array Nat → Random → Array Nat
  | 0, p, _ => p
  | n + 1, p, r =>
    let (j, r) := r.bits31
    shuffle n (p.swapIfInBounds (n + 1) (j % period)) r

/-- The noise of a seed (`newNoise2D`). -/
def ofSeed (seed : Int64) : Noise :=
  let (gradients, r) := drawGradients period #[] (.ofSeed seed)
  let p := (shuffle period (((Array.range period).push 0)) r).take period
  ⟨p ++ p ++ p.take 2, gradients⟩

/-- The curve that joins two values smoothly. -/
def ease (t : Float) : Float := t * t * (3 - 2 * t)

/-- The value between `a` and `b`. -/
def blend (t a b : Float) : Float := a + t * (b - a)

/-- The cell of a coordinate, the next cell, and the way from each of them. -/
structure Span where
  first : Nat
  second : Nat
  fromFirst : Float
  fromSecond : Float

/-- Coordinates are moved by this much, so that the cells near the origin have positive numbers. -/
def shift : Float := 4096

/-- Finds the cell of a coordinate. -/
def Span.ofCoordinate (x : Float) : Span :=
  let t := x + shift
  let cell := t.toInt32
  let first := (cell.toInt64.toInt.emod period).toNat
  ⟨first, (first + 1) % period, t - cell.toInt64.toFloat, t - cell.toInt64.toFloat - 1⟩

/-- The part of a corner: its gradient times the way from it. -/
def corner (noise : Noise) (i : Nat) (dx dy : Float) : Float :=
  let g := noise.gradients.getD (i % period) default
  dx * g.x + dy * g.y

/-- One octave. -/
def octave (noise : Noise) (x y : Float) : Float :=
  let h := Span.ofCoordinate x
  let v := Span.ofCoordinate y
  let entry (i : Nat) : Nat := noise.permutation.getD i 0
  let i := entry h.first
  let j := entry h.second
  let sx := ease h.fromFirst
  let a := blend sx (noise.corner (entry (i + v.first)) h.fromFirst v.fromFirst)
    (noise.corner (entry (j + v.first)) h.fromSecond v.fromFirst)
  let b := blend sx (noise.corner (entry (i + v.second)) h.fromFirst v.fromSecond)
    (noise.corner (entry (j + v.second)) h.fromSecond v.fromSecond)
  blend (ease v.fromFirst) a b

/-- The sum of `n` more octaves, each with twice the frequency and half the weight of the one
before. -/
def octaves (noise : Noise) : (n : Nat) → (scale sum x y : Float) → Float
  | 0, _, sum, _, _ => sum
  | n + 1, scale, sum, x, y =>
    octaves noise n (scale * 2) (sum + noise.octave x y / scale) (x * 2) (y * 2)

/-- The noise at a point, brought into the range from 0 to 1 (`noise2D.At`). -/
def value (noise : Noise) (x y : Float) : Float :=
  let v := (noise.octaves 3 1 0 x y + 1) / 2
  if v < 0 then 0 else if v > 1 then 1 else v

end Noise

end BlockWorld.Terrain
