import BlockWorld.Grid.Coord
/-!
Places inside a cube of sixteen by sixteen by sixteen: a block inside its chunk, or a chunk inside
its megachunk. Places are numbered with `x` running fastest and `z` slowest.
-/
namespace BlockWorld.Grid

/-- The number of places in a cube. -/
abbrev volume : Nat := 4096

/-- A place inside a cube. -/
structure Local where
  x : Fin 16
  y : Fin 16
  z : Fin 16
  deriving DecidableEq, Repr

namespace Local

/-- The number of a place. -/
@[inline] def index (l : Local) : Fin volume :=
  ⟨l.z.val * 256 + l.y.val * 16 + l.x.val, by unfold volume; omega⟩

/-- The number of a place is one of the cube. -/
theorem index_lt (l : Local) : l.index.val < volume := l.index.isLt

/-- The place with a given number. -/
def ofIndex (i : Fin volume) : Local :=
  ⟨⟨i.val % 16, by omega⟩, ⟨i.val / 16 % 16, by omega⟩,
    ⟨i.val / 256, by have h := i.isLt; unfold volume at h; omega⟩⟩

@[simp] theorem ofIndex_index (l : Local) : ofIndex l.index = l := by
  rcases l with ⟨⟨x, hx⟩, ⟨y, hy⟩, ⟨z, hz⟩⟩
  simp only [ofIndex, index, mk.injEq, Fin.mk.injEq]
  omega

@[simp] theorem index_ofIndex (i : Fin volume) : (ofIndex i).index = i := by
  rcases i with ⟨i, hi⟩
  simp only [ofIndex, index, Fin.mk.injEq]
  omega

/-- The place as a position. -/
def toCoord (l : Local) : Coord :=
  ⟨Int64.ofNat l.x.val, Int64.ofNat l.y.val, Int64.ofNat l.z.val⟩

end Local

/-- A component of a position as a component of a place, counted modulo sixteen. -/
@[inline] def sixteenth (a : Int64) : Fin 16 :=
  ⟨(floorMod a edge).toNatClampNeg % 16, by omega⟩

/-- The place of a position inside its parent cube. -/
@[inline] def Coord.place (p : Coord) : Local := ⟨sixteenth p.x, sixteenth p.y, sixteenth p.z⟩

/-- A position read as a place, if all its components lie between 0 and 15. -/
def Coord.local? (p : Coord) : Option Local :=
  if p.isLocal then some p.place else none

end BlockWorld.Grid
