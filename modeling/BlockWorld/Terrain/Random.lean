import BlockWorld.Terrain.Seasoning
/-!
A source of random numbers: an additive lagged generator over 607 words, seeded through a
multiplicative one.
-/
namespace BlockWorld.Terrain

/-- The number of words of the state. -/
abbrev stateSize : Nat := 607

/-- The distance between the two words that are added. -/
def lag : Nat := 273

/-- The state of a source: its words, and the places that the next number comes from. -/
structure Random where
  words : Vector UInt64 stateSize
  tap : Fin stateSize
  feed : Fin stateSize

namespace Random

/-! ## Seeding -/

/-- The modulus of the seeding generator. -/
def seedModulus : Int := 2147483647

/-- A seed as a state of the seeding generator, which must not be zero. -/
def seedState (seed : Int64) : Nat :=
  let s := seed.toInt.emod seedModulus
  if s = 0 then 89482311 else s.toNat

/-- The next state of the seeding generator. -/
def nextSeed (x : Nat) : Nat := x * 48271 % 2147483647

/-- The next word of the state, from three states of the seeding generator. -/
def seedWord (x : Nat) (i : Nat) : UInt64 × Nat :=
  let a := nextSeed x
  let b := nextSeed a
  let c := nextSeed b
  let mixed := (a.toUInt64 <<< 40) ^^^ (b.toUInt64 <<< 20) ^^^ c.toUInt64
  (mixed ^^^ seasoning.getD i 0, c)

/-- Fills `n` words from number `i` on. -/
def seedWords : (n i x : Nat) → Vector UInt64 stateSize → Vector UInt64 stateSize
  | 0, _, _, words => words
  | n + 1, i, x, words =>
    let (word, x) := seedWord x i
    seedWords n (i + 1) x (words.setIfInBounds i word)

/-- The source of a seed. The first twenty states of the seeding generator are thrown away. -/
def ofSeed (seed : Int64) : Random :=
  let x := Nat.repeat nextSeed 20 (seedState seed)
  ⟨seedWords stateSize 0 x (Vector.replicate stateSize 0), 0, ⟨stateSize - lag, by decide⟩⟩

/-! ## Drawing -/

/-- One place back, around the end of the state. -/
def back (i : Fin stateSize) : Fin stateSize :=
  ⟨if i.val = 0 then stateSize - 1 else i.val - 1, by split <;> omega⟩

/-- The next 64 random bits. -/
def bits64 (r : Random) : UInt64 × Random :=
  let tap := back r.tap
  let feed := back r.feed
  let word := r.words[feed] + r.words[tap]
  (word, ⟨r.words.set feed.val word, tap, feed⟩)

/-- The next 63 random bits. -/
def bits63 (r : Random) : UInt64 × Random :=
  let (word, r) := r.bits64
  (word &&& 0x7FFFFFFFFFFFFFFF, r)

/-- The next 31 random bits. -/
def bits31 (r : Random) : Nat × Random :=
  let (word, r) := r.bits63
  ((word >>> 32).toNat, r)

/-- How often a draw is repeated that falls outside its range. -/
def maxRetries : Nat := 64

/-- A random double below one. A number that rounds to one is drawn again. -/
def unit : (retries : Nat) → Random → Float × Random
  | 0, r => (0, r)
  | retries + 1, r =>
    let (word, r) := r.bits63
    let x := word.toFloat / 9223372036854775808
    if x == 1 then unit retries r else (x, r)

/-- Draws until a number is at most `max`. -/
def bounded (max : Nat) : (retries : Nat) → Random → Nat × Random
  | 0, r => (0, r)
  | retries + 1, r =>
    let (v, r) := r.bits31
    if v ≤ max then (v, r) else bounded max retries r

/-- A random double from zero to below one. -/
def float (r : Random) : Float × Random := unit maxRetries r

/-- A random number below three. -/
def belowThree (r : Random) : Fin 3 × Random :=
  let (v, r) := bounded (2147483647 - 2147483648 % 3) maxRetries r
  (⟨v % 3, Nat.mod_lt _ (by decide)⟩, r)

end Random

end BlockWorld.Terrain
