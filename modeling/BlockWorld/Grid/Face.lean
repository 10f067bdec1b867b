import BlockWorld.Grid.Coord
/-!
The six faces of a block, in the order `-x`, `+x`, `-y`, `+y`, `-z`, `+z`, and sets of visible
faces packed into a byte.
-/
namespace BlockWorld.Grid

/-- A face of a block. -/
inductive Face where
  | negX | posX | negY | posY | negZ | posZ
  deriving DecidableEq, Repr

namespace Face

/-- All faces, in order. -/
def all : List Face := [.negX, .posX, .negY, .posY, .negZ, .posZ]

/-- The step from a block to its neighbour behind a face. -/
def offset : Face → Coord
  | .negX => ⟨-1, 0, 0⟩
  | .posX => ⟨1, 0, 0⟩
  | .negY => ⟨0, -1, 0⟩
  | .posY => ⟨0, 1, 0⟩
  | .negZ => ⟨0, 0, -1⟩
  | .posZ => ⟨0, 0, 1⟩

/-- The bit of a face in a mask. -/
def bit : Face → UInt8
  | .negX => 1
  | .posX => 2
  | .negY => 4
  | .posY => 8
  | .negZ => 16
  | .posZ => 32

end Face

/-- Visible faces in the six low bits; the next bit tells that they have been computed. -/
structure FaceMask where
  bits : UInt8
  deriving DecidableEq, Repr, Inhabited

namespace FaceMask

/-- The mask of a block whose faces have not been computed. -/
def unknown : FaceMask := ⟨0⟩

/-- The bits of all six faces. -/
def faceBits : UInt8 := 0x3F

/-- The bit of a computed mask. -/
def validBit : UInt8 := 0x40

/-- Whether the faces have been computed (`FaceMask.Valid`). -/
def isValid (m : FaceMask) : Bool := m.bits &&& validBit != 0

/-- Whether a face is visible (`FaceMask.Has`). -/
def has (m : FaceMask) (f : Face) : Bool := m.bits &&& f.bit != 0

/-- The face bits alone (`FaceMask.Visible`). -/
def visible (m : FaceMask) : FaceMask := ⟨m.bits &&& faceBits⟩

/-- The mask with the mark of being computed. -/
def validated (m : FaceMask) : FaceMask := ⟨m.bits ||| validBit⟩

/-- The mask of the faces that satisfy a test. -/
def ofTest (test : Face → Bool) : FaceMask :=
  ⟨Face.all.foldl (fun bits f => if test f then bits ||| f.bit else bits) 0⟩

end FaceMask

end BlockWorld.Grid
