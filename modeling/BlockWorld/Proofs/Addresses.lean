import BlockWorld.Proofs.Grid
import BlockWorld.Proofs.Megachunk
import BlockWorld.World.Basic
/-!
Every position has a cell of its own. A world keeps the block of a position under the coordinate of
its megachunk, the number of its chunk there and its own number in the chunk (`Address`). The two
divisions that lead there are exact over the whole 64-bit range (`Coord.composed_parent`), so that no
two positions share an address, and every cell of a chunk that some position leads to is the cell of
one position.

How the proof goes. Along one axis a number is sixteen times its quotient plus a remainder from 0 to 15, and
the product and the sum are those of the integers (`composed_floorDiv`); this is applied to the three axes of
a position and once more to those of its chunk. An address keeps the two remainders as numbers of places, from
which the places come back (`toCoord_place`, `index_place`), so that equal addresses mean equal positions
(`Coord.eq_of_address`). Back from a place to a position the sum may leave the range, but not if the cube
holds any position at all (`exists_of_place`). All of this is put together in `address_exact`, with the
look-up of a world read off its definition (`block?_eq_cellAt?`).
-/
namespace BlockWorld

open Grid

namespace Grid

/-! ## Exact division -/

/-- A component is sixteen times another plus a remainder from 0 to 15. Neither the product nor the
sum leaves the 64-bit range on the way. -/
structure Composed (a q r : Int64) : Prop where
  nonneg : 0 ≤ r.toInt
  below : r.toInt < 16
  product : (q * edge).toInt = q.toInt * 16
  sum : (q * edge + r).toInt = q.toInt * 16 + r.toInt
  eq : q * edge + r = a

theorem composed_floorDiv (a : Int64) : Composed a (floorDiv a edge) (floorMod a edge) where
  nonneg := by
    rw [toInt_floorMod_edge]
    omega
  below := by
    rw [toInt_floorMod_edge]
    omega
  product := by rw [toInt_floorDiv_mul_edge, toInt_floorDiv_edge]
  sum := by rw [toInt_floorDiv_mul_edge_add, toInt_floorDiv_edge, toInt_floorMod_edge]
  eq := by rw [← ofNat_sixteenth, floorDiv_mul_edge_add_sixteenth]

/-- The same on every axis. -/
structure Coord.ComposedOf (p q r : Coord) : Prop where
  x : Composed p.x q.x r.x
  y : Composed p.y q.y r.y
  z : Composed p.z q.z r.z

namespace Coord

variable (p : Coord)

theorem composed_parent : p.ComposedOf p.parent p.within :=
  ⟨composed_floorDiv p.x, composed_floorDiv p.y, composed_floorDiv p.z⟩

/-! ## Places and their numbers -/

theorem toCoord_place : p.place.toCoord = p.within := by
  simp [Local.toCoord, place, within, floorMod, map, ofNat_sixteenth]

theorem index_place :
    (p.place.index.val : Int)
      = p.within.z.toInt * 256 + p.within.y.toInt * 16 + p.within.x.toInt := by
  simp [Local.index, place, sixteenth_val, within, floorMod, map, toInt_floorMod_edge]

/-- A place read as a position is at itself. -/
theorem place_toCoord (l : Local) : l.toCoord.place = l := by
  have hplace : ∀ i : Fin 16, sixteenth (Int64.ofNat i.val) = i := by decide
  simp [place, Local.toCoord, hplace]

/-- Every place of a cube that holds a position is the place of a position in it. -/
theorem exists_of_place (l : Local) : ∃ q : Coord, q.parent = p.parent ∧ q.place = l := by
  refine ⟨p.parent.scale edge + l.toCoord, ?_, ?_⟩
  · rw [parent_scale_add _ l.isLocal_toCoord, parent_scale_parent]
  · rw [place_scale_add _ l.isLocal_toCoord, place_toCoord]

end Coord

/-! ## Addresses -/

/-- Where a world keeps a block: the coordinate of a megachunk, the number of a chunk in it, and the
number of a cell in the chunk. -/
structure Address where
  mega : Coord
  slot : Fin volume
  cell : Fin volume
  deriving DecidableEq

/-- The address of a position. -/
def Coord.address (p : Coord) : Address := ⟨p.parent.parent, p.parent.place.index, p.place.index⟩

/-- No two positions share an address. -/
theorem Coord.eq_of_address {p q : Coord} (h : p.address = q.address) : p = q := by
  simp only [address, Address.mk.injEq, Local.index_injective.eq_iff] at h
  obtain ⟨hmega, hslot, hcell⟩ := h
  have hparent : p.parent = q.parent := eq_of_parent_place hmega hslot
  exact eq_of_parent_place hparent hcell

end Grid

namespace World

/-- The cell at an address, if there is a chunk. -/
def cellAt? (w : World) (a : Address) : Option Cell :=
  (w.megachunks[a.mega]?).bind fun m =>
    (m.slots.get a.slot).bind fun h => (w.arena.get? h).map fun d => d.chunk.cells.get a.cell

/-- A world looks for the block of a position at its address and nowhere else. -/
theorem block?_eq_cellAt? (w : World) (p : Coord) :
    w.block? p = (w.cellAt? p.address).filter fun b => !b.isAir := by
  unfold block? chunk? handle? cellAt?
  simp only [Coord.address, Megachunk.handle?]
  cases w.megachunks[p.parent.parent]? with
  | none => rfl
  | some m =>
    simp only [Option.bind_some]
    cases m.slots.get p.parent.place.index with
    | none => rfl
    | some h =>
      simp only [Option.bind_some]
      cases w.arena.get? h with
      | none => rfl
      | some d =>
        simp only [Chunk.block?, Chunk.cell, Option.map_some, Option.filter_some]
        by_cases hair : (d.chunk.cells.get p.place.index).isAir = true <;> simp [hair]

/-- For every position, chunk and place in the chunk make up the position, and megachunk and place
in the megachunk make up the chunk; remainders lie between 0 and 15, and nothing wraps around. Places
and their numbers determine each other. So no other position has the same address, each cell of the
chunk belongs to exactly one position, and the address is where a world looks. -/
theorem address_exact (p : Coord) :
    p.ComposedOf p.parent p.within
      ∧ p.parent.ComposedOf p.parent.parent p.parent.within
      ∧ (p.place.toCoord = p.within ∧ p.parent.place.toCoord = p.parent.within)
      ∧ (p.address.cell.val : Int)
          = p.within.z.toInt * 256 + p.within.y.toInt * 16 + p.within.x.toInt
      ∧ (p.address.slot.val : Int)
          = p.parent.within.z.toInt * 256 + p.parent.within.y.toInt * 16
            + p.parent.within.x.toInt
      ∧ (∀ l : Local, Local.ofIndex l.index = l)
      ∧ (∀ i : Fin volume, (Local.ofIndex i).index = i)
      ∧ (∀ q : Coord, q.address = p.address → q = p)
      ∧ (∀ l : Local, ∃ q : Coord, (q.parent = p.parent ∧ q.place = l)
          ∧ ∀ q' : Coord, q'.parent = p.parent → q'.place = l → q' = q)
      ∧ ∀ w : World, w.block? p = (w.cellAt? p.address).filter fun b => !b.isAir := by
  refine ⟨p.composed_parent, p.parent.composed_parent, ⟨p.toCoord_place, p.parent.toCoord_place⟩,
    p.index_place, p.parent.index_place, Local.ofIndex_index, Local.index_ofIndex,
    fun q hq => Coord.eq_of_address hq, fun l => ?_, fun w => w.block?_eq_cellAt? p⟩
  obtain ⟨q, hparent, hplace⟩ := p.exists_of_place l
  refine ⟨q, ⟨hparent, hplace⟩, ?_⟩
  intro q' hparent' hplace'
  exact Coord.eq_of_parent_place (hparent'.trans hparent.symm) (hplace'.trans hplace.symm)

example : (⟨Int64.minValue, Int64.maxValue, -1⟩ : Coord).address
    = ⟨⟨-36028797018963968, 36028797018963967, -1⟩, ⟨4080, by decide⟩, ⟨4080, by decide⟩⟩ := by
  decide

end World

end BlockWorld
