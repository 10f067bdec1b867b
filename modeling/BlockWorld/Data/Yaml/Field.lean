import BlockWorld.Data.Yaml.Merge
/-!
Reading YAML nodes as the kind of value that a field wants. An alias counts as the node it names; a
null leaves the field as it was.
-/
namespace BlockWorld.Data.Yaml

/-- How a value is read from a node. The value before counts where a node only changes a part of it;
`none` leaves all as it was. -/
abbrev Reader (α : Type) := (old : α) → Yaml → Reading (Option α)

/-! ## Scalars -/

/-- Reads a scalar by what it stands for; a null leaves the field. -/
def ofScalar {α : Type} (want : Scalar → Reading (Option α)) : Reader α := fun _ y => do
  match (← y.enter).node with
  | .scalar tag text plain =>
    let s ← scalarOf tag text plain
    match s.meaning with
    | .null => return none
    | _ => want s
  | _ => passOver

/-- Reads a scalar that has to stand for a value. -/
def ofMeaning {α : Type} (want : Meaning → Option α) : Reader α :=
  ofScalar fun s =>
    match want s.meaning with
    | some v => return some v
    | none => passOver

/-- A number cut toward zero that fits a signed 64-bit word; one that is too small counts as the least
word, and so does the first that is too large. -/
def cutFloat? (x : Float) : Option Int :=
  if x ≤ 9223372036854775808 then
    if -9223372036854775808 ≤ x && x < 9223372036854775808 then
      some (if x < 0 then x.ceil.toInt64.toInt else x.floor.toInt64.toInt)
    else some Int64.minValue.toInt
  else none

/-- A whole number, or a number cut toward zero. -/
def wholeNumber? : Meaning → Option Int
  | .int n => some n
  | .float x => cutFloat? x
  | _ => none

/-- A signed 64-bit field. -/
def int64 : Reader Int64 :=
  ofMeaning fun m => do
    let n ← wholeNumber? m
    if Int64.minValue.toInt ≤ n ∧ n ≤ Int64.maxValue.toInt then some (Int64.ofInt n) else none

/-- An unsigned 16-bit field. -/
def uint16 : Reader UInt16 :=
  ofMeaning fun m => do
    let n ← wholeNumber? m
    if 0 ≤ n ∧ n < UInt16.size then some n.toNat.toUInt16 else none

/-- A double field. -/
def double : Reader Float :=
  ofMeaning fun
    | .int n => some (Float.ofInt n)
    | .float x => some x
    | _ => none

/-- A single field; the number is rounded to a double first. -/
def single : Reader Float32 :=
  ofMeaning fun
    | .int n => some (Float.ofInt n).toFloat32
    | .float x => some x.toFloat32
    | _ => none

/-- A truth value; the words of older versions of the format count as well. -/
def boolean : Reader Bool :=
  ofMeaning fun
    | .bool b => some b
    | .text t =>
      if t ∈ ["y", "Y", "yes", "Yes", "YES", "on", "On", "ON"] then some true
      else if t ∈ ["n", "N", "no", "No", "NO", "off", "Off", "OFF"] then some false
      else none
    | _ => none

/-- A text field takes any scalar as it is written. -/
def string : Reader String := ofScalar fun s => return some s.text

/-! ## Mappings -/

/-- Reads a mapping pair by pair, starting from `empty`. A mapping with a repeated key is passed over,
and a null gives `null`. -/
def ofMapping {α : Type} (put : Put α) (empty : α) (null : Option α) (y : Yaml) :
    Reading (Option α) := do
  let y ← y.enter
  match y.node with
  | .mapping _ pairs => return some (← putMapping put y.depthOf none y pairs empty).1
  | .scalar tag text plain =>
    match (← scalarOf tag text plain).meaning with
    | .null => return null
    | _ => passOver
  | _ => passOver

/-- A field of a record. -/
structure Field (α : Type) where
  name : String
  /-- Whether it belongs to a record inside the record whose fields stand beside the others. -/
  inner : Bool
  read : α → Yaml → Reading α

/-- A field by how its value is read, taken and put. -/
def field {α β : Type} (name : String) (read : Reader β) (take : α → β) (put : α → β → α) :
    Field α where
  name := name
  inner := false
  read r y := do
    match ← read (take r) y with
    | some v => return put r v
    | none => return r

/-- A field of an inner record. -/
def innerField {α β : Type} (name : String) (read : Reader β) (take : α → β) (put : α → β → α) :
    Field α := { field name read take put with inner := true }

/-- Reads a pair into a record. Names that it does not know are ignored, and none of the others may
occur twice. -/
def putField {α : Type} (fields : List (Field α)) : Put α := fun e r =>
  match fields.find? (·.name == e.name) with
  | none => return r
  | some f => do
    if e.again then
      noteMismatch
      return r
    if f.inner && e.inNull then
      e.value.count
      throw (.broken .nullRecord)
    f.read r e.value

/-- Reads a mapping into a record. A null leaves the record as it was. -/
def record {α : Type} (fields : List (Field α)) : Reader α := fun old y =>
  ofMapping (putField fields) old none y

/-- Sets the value of a key in a list of pairs. -/
def setPair (name value : String) : List (String × String) → List (String × String)
  | [] => [(name, value)]
  | (n, v) :: rest => if n = name then (n, value) :: rest else (n, v) :: setPair name value rest

/-- Reads a pair of texts. A null instead of a text is an empty one, unless it would take the place of
another text. -/
def putText : Put (List (String × String)) := fun e acc => do
  match ← string "" e.value with
  | some text => return setPair e.name text acc
  | none => return if e.merged && (acc.lookup e.name).isSome then acc else setPair e.name "" acc

/-- Reads a mapping from texts to texts; a null instead of it is an empty mapping. -/
def texts : Reader (List (String × String)) := fun _ y => ofMapping putText [] (some []) y

/-- A time field; a time in quotes has to have the full form. A mapping has nothing for a time in it and
leaves the field. -/
def timestamp : Reader Timestamp := fun old y => do
  let y ← y.enter
  match y.node with
  | .mapping _ pairs => return some (← putMapping (putField []) y.depthOf none y pairs old).1
  | .scalar tag text plain =>
    let s ← scalarOf tag text plain
    match s.meaning with
    | .null => return none
    | .time t => return some t
    | _ =>
      match Timestamp.parse? s.text with
      | some t => return some t
      | none => refuse
  | _ => passOver

/-! ## Sequences -/

/-- Reads a sequence of values that are each read starting from `blank`; nulls among its items are
dropped, and a null instead of it is an empty list. -/
def list {α : Type} (item : Reader α) (blank : α) : Reader (List α) := fun _ y => do
  let y ← y.enter
  match y.node with
  | .sequence _ nodes => return some (← nodes.filterMapM fun node => item blank (y.child node))
  | .scalar tag text plain =>
    match (← scalarOf tag text plain).meaning with
    | .null => return some []
    | _ => passOver
  | .mapping _ _ => passOver
  | .alias _ _ _ => refuse

/-! ## Texts -/

/-- Reads a text in bytes as a value, starting from `old`; a text without a document leaves it. -/
def decode {α : Type} (read : Reader α) (old : α) (data : ByteArray) : Except Failure α :=
  (decodeWith (read old) data).map (·.getD old)

end BlockWorld.Data.Yaml
