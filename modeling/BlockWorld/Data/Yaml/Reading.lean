import BlockWorld.Data.Yaml.Meaning
import BlockWorld.Fault
/-!
Reading a YAML document node by node. A node that is not what its place wants is noted and passed over,
so that the reading goes on; other faults stop it at once. The nodes that are read are counted, those
that are read by way of an alias twice, because too large a part of them tells that a small text was made
to stand for a very large document.
-/
namespace BlockWorld.Data

/-- A node inside a document, with the aliases that lead to it. -/
structure Yaml where
  node : Yaml.Node
  document : Yaml.Document
  /-- The numbers of the aliases that were followed to get here. -/
  trail : List Nat

namespace Yaml

/-- Another node of the same part of the document. -/
def child (y : Yaml) (node : Node) : Yaml := { y with node }

/-! ## Faults -/

/-- A key that is no scalar. -/
inductive CollectionKey where
  | sequence
  /-- A mapping all of whose keys are texts. -/
  | textMapping
  | mapping
  deriving DecidableEq, Repr

/-- The wording for the kind of a key. -/
def CollectionKey.text : CollectionKey → String
  | .sequence => "[]interface \x7b\x7d"
  | .textMapping => "map[string]interface \x7b\x7d"
  | .mapping => "map[interface \x7b\x7d]interface \x7b\x7d"

/-- What no reader gets over. -/
inductive Breakdown where
  /-- A collection stands among the keys of a mapping that takes pairs from others. -/
  | key (k : CollectionKey)
  /-- The same, before any other key was met. -/
  | firstKey (k : CollectionKey)
  /-- A record that calls itself a null has a field of its inner part. -/
  | nullRecord
  deriving DecidableEq, Repr

/-- The wording of a breakdown. -/
def Breakdown.message : Breakdown → String
  | .key k => "runtime error: hash of unhashable type " ++ k.text
  | .firstKey k => "hash of unhashable type: " ++ k.text
  | .nullRecord => "reflect: call of reflect.Value.Type on zero Value"

/-- Why a reading stops. -/
inductive Stop where
  | refused
  | broken (b : Breakdown)
  deriving DecidableEq, Repr

/-! ## Progress -/

/-- How far the reading of a document has come. -/
structure Progress where
  /-- The number of nodes that were read. -/
  nodes : Nat
  /-- The number of those that were read by way of an alias. -/
  borrowed : Nat
  /-- Whether a node was not what its place wants. -/
  mismatch : Bool
  deriving DecidableEq, Repr

/-- The document itself counts as the first node. -/
def Progress.start : Progress := ⟨1, 0, false⟩

/-- Whether `part` of `whole` nodes are more than may be read by way of aliases: 99 in 100 of up to
400,000 nodes, 10 in 100 from 4,000,000 nodes on, and evenly less in between. -/
def exceedsShare (part whole : Nat) : Bool :=
  if whole ≤ 400000 then 99 * whole < 100 * part
  else if 4000000 ≤ whole then whole < 10 * part
  else whole * (99 * 3600000 - 89 * (whole - 400000)) < 360000000 * part

/-- Whether too much of a document comes from aliases. Small documents may do as they like. -/
def Progress.isInflated (p : Progress) : Bool :=
  100 < p.borrowed && 1000 < p.nodes && exceedsShare p.borrowed p.nodes

/-- A step of reading a document. -/
abbrev Reading := StateT Progress (Except Stop)

/-- Stops the reading. -/
def refuse {α : Type} : Reading α := throw .refused

/-- Notes that a node is not what its place wants. -/
def noteMismatch : Reading Unit := modify fun p => { p with mismatch := true }

/-- Notes that a node is not what its place wants, and passes it over. -/
def passOver {α : Type} : Reading (Option α) := do
  noteMismatch
  return none

/-- Counts a node. -/
def count (y : Yaml) : Reading Unit := do
  let p ← get
  let p := { p with nodes := p.nodes + 1, borrowed := p.borrowed + if y.trail.isEmpty then 0 else 1 }
  set p
  if p.isInflated then refuse

/-- Comes to a node. Instead of an alias it is the node that the alias names, which must not be read
inside itself. -/
def enter (y : Yaml) : Reading Yaml := do
  y.count
  match y.node with
  | .alias number _ target =>
    if number ∈ y.trail then refuse
    else
      match y.document.anchored.lookup target with
      | some node =>
        let y := { y with node, trail := number :: y.trail }
        y.count
        return y
      | none => refuse
  | _ => return y

/-- What a scalar stands for. One that is not what its tag says stops the reading. -/
def scalarOf (tag : Option String) (text : String) (plain : Bool) : Reading Scalar :=
  match scalarValue tag text plain with
  | .ok s => return s
  | .error _ => refuse

/-! ## Outcomes -/

/-- Why a text does not give a value. -/
inductive Failure where
  /-- The text is not well formed. -/
  | malformed
  /-- The text does not say what is asked of it. -/
  | mismatch
  | broken (b : Breakdown)
  deriving DecidableEq, Repr

namespace Failure

/-- The wording of a failure. Apart from breakdowns it only names the format. -/
def message : Failure → String
  | .broken b => b.message
  | _ => "yaml"

/-- The reasons of a failure. -/
def reasons : Failure → List Reason
  | .broken _ => [.breakdown]
  | _ => []

instance : Fault Failure := ⟨message, reasons⟩

end Failure

/-- Reads a text in bytes; `none` stands for a text without a document, or for one whose outermost node
leaves things as they are. -/
def decodeWith {α : Type} (read : Yaml → Reading (Option α)) (data : ByteArray) :
    Except Failure (Option α) :=
  match Document.read data with
  | .error _ => .error .malformed
  | .ok none => .ok none
  | .ok (some document) =>
    match (read ⟨document.root, document, []⟩).run .start with
    | .ok (v, progress) => if progress.mismatch then .error .mismatch else .ok v
    | .error .refused => .error .mismatch
    | .error (.broken b) => .error (.broken b)

end Yaml

end BlockWorld.Data
