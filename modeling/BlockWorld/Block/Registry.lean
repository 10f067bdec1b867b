import BlockWorld.Fault
import BlockWorld.Text.Quoted
/-!
Block types and their properties. A registry lists the known types in increasing order of their
numbers; number 0 is air.
-/
namespace BlockWorld.Block

/-- The number of a block type. -/
abbrev BlockId := UInt16

/-- The empty cell. -/
def air : BlockId := 0

/-- What the world needs to know about a block type. -/
structure Properties where
  name : String
  /-- Faces of neighbours stay visible through the block. -/
  transparent : Bool
  /-- How much slower than dirt the block is to dig; zero counts as one, and a block with a
  negative hardness cannot be broken. -/
  hardness : Float32
  deriving Repr, Inhabited

/-- The known block types, in increasing order of their numbers. -/
structure Registry where
  types : List (BlockId × Properties)

namespace Registry

/-- Puts a type in its place in an ordered list, instead of one with the same number. -/
def insert (id : BlockId) (props : Properties) :
    List (BlockId × Properties) → List (BlockId × Properties)
  | [] => [(id, props)]
  | (other, theirs) :: rest =>
    if id < other then (id, props) :: (other, theirs) :: rest
    else if id = other then (id, props) :: rest
    else (other, theirs) :: insert id props rest

/-- Adds a type, or replaces its properties (`Register`). -/
def register (r : Registry) (id : BlockId) (props : Properties) : Registry :=
  ⟨insert id props r.types⟩

/-- The properties of a type (`Get`). -/
def get? (r : Registry) (id : BlockId) : Option Properties := r.types.lookup id

/-- Whether a type is known (`IsValidBlockID`). -/
def contains (r : Registry) (id : BlockId) : Bool := (r.get? id).isSome

/-- Whether faces of neighbours stay visible. Air and unknown types are transparent. Stands for
`IsTransparent`. -/
def isTransparent (r : Registry) (id : BlockId) : Bool :=
  if id = air then true else ((r.get? id).map (·.transparent)).getD true

/-- The hardness of a type; one where none is known or it is zero (`Hardness`). -/
def hardness (r : Registry) (id : BlockId) : Float32 :=
  match r.get? id with
  | none => 1
  | some props => if props.hardness == 0 then 1 else props.hardness

/-- The numbers of all types, in increasing order (`IDs`). -/
def ids (r : Registry) : List BlockId := r.types.map (·.1)

/-- No type has the name that was looked for. -/
structure UnknownName where
  name : String
  deriving DecidableEq, Repr

/-- The wording of a failed look-up. -/
def UnknownName.message (e : UnknownName) : String :=
  "unknown block type " ++ Text.quote e.name

instance : Fault UnknownName := ⟨UnknownName.message, fun _ => []⟩

/-- The least number of a type with a given name (`Lookup`). -/
def lookup (r : Registry) (name : String) : Except UnknownName BlockId :=
  match r.types.find? (·.2.name == name) with
  | some (id, _) => .ok id
  | none => .error ⟨name⟩

/-- The types that are always there. -/
def builtin : Registry :=
  ⟨[(0, ⟨"air", true, 0⟩), (1, ⟨"stone", false, 3⟩), (2, ⟨"grass", false, 1⟩),
    (3, ⟨"dirt", false, 1⟩), (4, ⟨"sand", false, 1⟩), (5, ⟨"water", true, -1⟩),
    (6, ⟨"log", false, 2⟩), (7, ⟨"leaves", true, 0.5⟩), (8, ⟨"glass", true, 0.5⟩),
    (9, ⟨"bedrock", false, -1⟩)]⟩

end Registry

/-! ## Types that terrain is made of -/

/-- Rock. -/
def stone : BlockId := 1

/-- The top layer of soil. -/
def grass : BlockId := 2

/-- Soil. -/
def dirt : BlockId := 3

/-- Beach and desert. -/
def sand : BlockId := 4

/-- Lakes. -/
def water : BlockId := 5

/-- Trunks. -/
def log : BlockId := 6

/-- Crowns. -/
def leaves : BlockId := 7

/-- The floor of the world. -/
def bedrock : BlockId := 9

end BlockWorld.Block
