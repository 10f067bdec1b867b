/-!
YAML documents as trees of scalars, sequences and mappings. A node with an anchor can be used again
by aliases, even inside itself, so an alias is a node of its own that names the anchored one.
-/
namespace BlockWorld.Data.Yaml

/-- A node of a YAML document. Only a scalar with a tag or a plain one, one without quotes, can stand
for anything but text. The tag of a collection does not change what it is. -/
inductive Node where
  | scalar (tag : Option String) (text : String) (plain : Bool)
  | sequence (tag : Option String) (items : List Node)
  | mapping (tag : Option String) (pairs : List (Node × Node))
  /-- A use of the anchored node number `target`. Every alias of a document has an own `number`. -/
  | alias (number : Nat) (name : String) (target : Nat)
  deriving Inhabited, Repr

/-- The node of a value that was left out. -/
def Node.missing : Node := .scalar none "" true

/-- A document: its outermost node and the nodes with anchors by number. -/
structure Document where
  root : Node
  anchored : List (Nat × Node)
  /-- More steps than a way through the document has that takes no alias twice. -/
  steps : Nat
  deriving Inhabited, Repr

end BlockWorld.Data.Yaml
