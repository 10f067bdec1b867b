import BlockWorld.Proofs.Chunk
import BlockWorld.Proofs.Grid
/-!
Face masks and the faces of one chunk. A mask made from a test has just the faces that pass
(`FaceMask.has_ofTest`), and the mark of a computed mask hides none of them. A chunk answers with the
mask that it remembers, or computes one and remembers it; nothing else of the chunk changes
(`Chunk.block?_visibleFaces`).

How the proof goes. There are six faces and so 64 tests, and what is said about masks is tried for each of
them (`Face.forall_test`). A step through a face and the step back through the opposite one lead to the same
position also where the first one wraps around (`Coord.add_offset_opposite`). For a chunk there are three
cases, which the definition splits in the same way: there is no block (`visibleFaces_of_none`), a mask is
remembered (`visibleFaces_of_valid`), or it is computed and filled in (`visibleFaces_of_unknown`).
-/
namespace BlockWorld

open Grid Block

namespace Grid

/-! ## Masks -/

/-- What holds for all combinations of six answers holds for every test of faces. -/
theorem Face.forall_test {P : (Face → Bool) → Prop}
    (h : ∀ a b c d e g : Bool, P fun f =>
      match f with
      | .negX => a | .posX => b | .negY => c | .posY => d | .negZ => e | .posZ => g)
    (test : Face → Bool) : P test := by
  have htest : test = fun f =>
      match f with
      | .negX => test .negX | .posX => test .posX | .negY => test .negY
      | .posY => test .posY | .negZ => test .negZ | .posZ => test .posZ := by
    funext f
    cases f <;> rfl
  rw [htest]
  exact h ..

namespace FaceMask

@[simp] theorem has_ofTest (test : Face → Bool) (f : Face) : (ofTest test).has f = test f := by
  revert test
  refine Face.forall_test ?_
  cases f <;> decide

@[simp] theorem visible_validated_ofTest (test : Face → Bool) :
    (ofTest test).validated.visible = ofTest test := by
  revert test
  exact Face.forall_test (by decide)

@[simp] theorem visible_ofTest (test : Face → Bool) : (ofTest test).visible = ofTest test := by
  revert test
  exact Face.forall_test (by decide)

@[simp] theorem isValid_validated_ofTest (test : Face → Bool) :
    (ofTest test).validated.isValid = true := by
  revert test
  exact Face.forall_test (by decide)

@[simp] theorem isValid_unknown : unknown.isValid = false := by decide

end FaceMask

/-! ## Neighbours -/

/-- The face on the other side. -/
def Face.opposite : Face → Face
  | .negX => .posX
  | .posX => .negX
  | .negY => .posY
  | .posY => .negY
  | .negZ => .posZ
  | .posZ => .negZ

theorem Face.mem_all (f : Face) : f ∈ all := by
  cases f <;> decide

theorem Coord.add_origin (p : Coord) : p + .origin = p := by
  obtain ⟨x, y, z⟩ := p
  show (⟨x + 0, y + 0, z + 0⟩ : Coord) = _
  simp

/-- A step and the step back lead to the same position, also across the end of the 64-bit range. -/
theorem Coord.add_offset_opposite (p : Coord) (f : Face) :
    p + f.offset + f.opposite.offset = p := by
  have hback : f.offset + f.opposite.offset = .origin := by
    cases f <;> decide
  rw [Coord.add_assoc, hback, Coord.add_origin]

end Grid

/-! ## A chunk -/

/-- The cell after its faces have been asked for: an unknown mask has been filled in. -/
def Cell.remember (mask : FaceMask) (b : Cell) : Cell :=
  if b.faces.isValid then b else { b with faces := mask.validated }

theorem Cell.kind_remember (mask : FaceMask) (b : Cell) : (b.remember mask).kind = b.kind := by
  unfold remember
  split <;> rfl

namespace Chunk

variable (r : Registry) (c : Chunk) (l : Local) (origin : Coord) (outside : Coord → Option BlockId)

theorem visibleFaces_of_none (hb : c.block? l = none) :
    c.visibleFaces r l origin outside = (.unknown, c) := by
  have hair : (c.cell l).isAir = true := by
    rw [block?] at hb
    split at hb
    · assumption
    · cases hb
  simp [visibleFaces, hair]

theorem visibleFaces_of_valid {b : Cell} (hb : c.block? l = some b) (hv : b.faces.isValid = true) :
    c.visibleFaces r l origin outside = (b.faces.visible, c) := by
  obtain ⟨rfl, hair⟩ := cell_of_block? hb
  simp [visibleFaces, hair, hv]

theorem visibleFaces_of_unknown {b : Cell} (hb : c.block? l = some b)
    (hv : b.faces.isValid = false) :
    c.visibleFaces r l origin outside
      = (c.freshMask r l b.kind origin outside,
        c.setCell l { b with faces := (c.freshMask r l b.kind origin outside).validated }) := by
  obtain ⟨rfl, hair⟩ := cell_of_block? hb
  simp [visibleFaces, hair, hv]

/-- Asking for faces changes what is remembered at the place, and nothing else. -/
theorem block?_visibleFaces (l' : Local) :
    (c.visibleFaces r l origin outside).2.block? l'
      = if l' = l then (c.block? l).map fun b =>
          b.remember (c.freshMask r l b.kind origin outside)
        else c.block? l' := by
  cases hb : c.block? l with
  | none =>
    rw [visibleFaces_of_none r c l origin outside hb]
    split
    · rename_i hl
      rw [hl, hb, Option.map_none]
    · rfl
  | some b =>
    cases hv : b.faces.isValid with
    | true =>
      rw [visibleFaces_of_valid r c l origin outside hb hv]
      split
      · rename_i hl
        simp [hl, hb, Cell.remember, hv]
      · rfl
    | false =>
      have hkind := kind_ne_air_of_block? hb
      rw [visibleFaces_of_unknown r c l origin outside hb hv, block?_setCell]
      split
      · simp [Cell.solid?, Cell.isAir, Cell.remember, hv, hkind]
      · rfl

end Chunk

end BlockWorld
