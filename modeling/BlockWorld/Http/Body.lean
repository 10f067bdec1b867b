import BlockWorld.Block.Registry
import BlockWorld.Data.Json
import BlockWorld.Space.Point
/-!
The bodies of requests: JSON objects read into records. The case of names does not matter, names
that are not known are passed over, and of a repeated name the last value counts. A null leaves a
field as it is; a value of another kind than the field's is an error.
-/
namespace BlockWorld.Http

open Data Space

/-- A body is not what the request needs. -/
structure BadBody where
  deriving DecidableEq, Repr

/-- The wording of a bad body. -/
def BadBody.message (_ : BadBody) : String := "Неверный формат запроса: json"

/-- The outcome of reading a value. -/
abbrev Reading (α : Type) := Except BadBody α

/-- A letter for comparing names: capitals count as small letters, and so do the two signs outside
ASCII that have a small letter in it. -/
def foldLetter (c : Char) : Char :=
  if c.toNat = 0x17F then 's' else if c.toNat = 0x212A then 'k' else c.toLower

/-- A name for comparing. -/
def foldName (s : String) : String := String.ofList (s.toList.map foldLetter)

/-- Reads an object into a record, field by field. `set` is given names in small letters. -/
def readObject {α : Type} (set : String → Json → α → Reading α) (old : α) : Json → Reading α
  | .null => .ok old
  | .object fields => fields.foldlM (fun acc (name, value) => set (foldName name) value acc) old
  | _ => .error ⟨⟩

/-- A whole number of 64 bits. -/
def readInt64 (old : Int64) : Json → Reading Int64
  | .null => .ok old
  | .number literal =>
    match Text.readInteger literal.toList with
    | .ok n => .ok n
    | .error _ => .error ⟨⟩
  | _ => .error ⟨⟩

/-- A number from 0 to 65535, or nothing for a null. -/
def readUInt16? : Json → Reading (Option UInt16)
  | .null => .ok none
  | .number literal =>
    match Text.magnitude literal.toList with
    | .ok n => if n < 65536 then .ok (some n.toUInt16) else .error ⟨⟩
    | .error _ => .error ⟨⟩
  | _ => .error ⟨⟩

/-- A double within range. -/
def readDouble (old : Float) : Json → Reading Float
  | .null => .ok old
  | .number literal =>
    match Number.readDecimal literal.toList with
    | some d => if d.toFloat.isInf then .error ⟨⟩ else .ok d.toFloat
    | none => .error ⟨⟩
  | _ => .error ⟨⟩

/-- A single within range. -/
def readSingle (old : Float32) : Json → Reading Float32
  | .null => .ok old
  | .number literal =>
    match Number.readDecimal literal.toList with
    | some d => if d.toFloat32.isInf then .error ⟨⟩ else .ok d.toFloat32
    | none => .error ⟨⟩
  | _ => .error ⟨⟩

/-- A text. -/
def readText (old : String) : Json → Reading String
  | .null => .ok old
  | .string s => .ok s
  | _ => .error ⟨⟩

/-- A truth value. -/
def readFlag (old : Bool) : Json → Reading Bool
  | .null => .ok old
  | .bool b => .ok b
  | _ => .error ⟨⟩

/-- Three doubles. Missing ones are zero, and more than three are passed over. -/
def readPoint (old : Point Float) : Json → Reading (Point Float)
  | .null => .ok old
  | .array items => do
    let component (i : Nat) (old : Float) : Reading Float :=
      match items[i]? with
      | some item => readDouble old item
      | none => .ok 0
    return ⟨← component 0 old.x, ← component 1 old.y, ← component 2 old.z⟩
  | _ => .error ⟨⟩

/-- Reads a body into a record. What follows the first value is passed over. -/
def readBody {α : Type} (set : String → Json → α → Reading α) (blank : α) (body : String) :
    Reading α :=
  match Json.first? body with
  | some value => readObject set blank value
  | none => .error ⟨⟩

/-! ## The records -/

/-- A request to put a block. -/
structure BlockBody where
  x : Int64
  y : Int64
  z : Int64
  kind : Option UInt16
  name : String

/-- Reads a request to put a block. -/
def BlockBody.read : String → Reading BlockBody :=
  readBody (fun name value b =>
    match name with
    | "x" => do .ok { b with x := ← readInt64 b.x value }
    | "y" => do .ok { b with y := ← readInt64 b.y value }
    | "z" => do .ok { b with z := ← readInt64 b.z value }
    | "type" => do .ok { b with kind := ← readUInt16? value }
    | "name" => do .ok { b with name := ← readText b.name value }
    | _ => .ok b) ⟨0, 0, 0, none, ""⟩

/-- A request to dig. -/
structure DigBody where
  x : Int64
  y : Int64
  z : Int64
  amount : Float32

/-- Reads a request to dig. -/
def DigBody.read : String → Reading DigBody :=
  readBody (fun name value b =>
    match name with
    | "x" => do .ok { b with x := ← readInt64 b.x value }
    | "y" => do .ok { b with y := ← readInt64 b.y value }
    | "z" => do .ok { b with z := ← readInt64 b.z value }
    | "amount" => do .ok { b with amount := ← readSingle b.amount value }
    | _ => .ok b) ⟨0, 0, 0, 0⟩

/-- A request to follow a ray. -/
structure RayBody where
  origin : Point Float
  direction : Point Float
  maxDistance : Float
  previous : Bool

/-- Reads a request to follow a ray. -/
def RayBody.read : String → Reading RayBody :=
  readBody (fun name value b =>
    match name with
    | "origin" => do .ok { b with origin := ← readPoint b.origin value }
    | "direction" => do .ok { b with direction := ← readPoint b.direction value }
    | "max_distance" => do .ok { b with maxDistance := ← readDouble b.maxDistance value }
    | "previous" => do .ok { b with previous := ← readFlag b.previous value }
    | _ => .ok b) ⟨.zero, .zero, 0, false⟩

/-- A request to push a box out of blocks. -/
structure BoxBody where
  min : Point Float
  max : Point Float

/-- Reads a request to push a box out of blocks. -/
def BoxBody.read : String → Reading BoxBody :=
  readBody (fun name value b =>
    match name with
    | "min" => do .ok { b with min := ← readPoint b.min value }
    | "max" => do .ok { b with max := ← readPoint b.max value }
    | _ => .ok b) ⟨.zero, .zero⟩

end BlockWorld.Http
