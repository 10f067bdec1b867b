import BlockWorld.Data.Yaml.Reading
/-!
Mappings that take pairs from other mappings, which stand under the key `<<`. Their own pairs win over
those, and earlier mappings over later ones, so the keys that were met are kept. All keys of the taking
mapping are among them, and therefore read as values of their own first; only scalars can be kept.
-/
namespace BlockWorld.Data.Yaml

/-! ## Keys -/

/-- The kinds of nodes as they count for comparing keys. -/
inductive KeyKind where
  | scalar
  | sequence
  | mapping
  | alias
  deriving DecidableEq

/-- What counts for comparing keys: the kind, and the text of a scalar or the name of an alias. -/
def Node.keyText : Node → KeyKind × String
  | .scalar _ text _ => (.scalar, text)
  | .sequence _ _ => (.sequence, "")
  | .mapping _ _ => (.mapping, "")
  | .alias _ name _ => (.alias, name)

/-- Whether no key occurs twice. -/
def uniqueKeys : List (Node × Node) → Bool
  | [] => true
  | (key, _) :: rest => !(rest.any fun (other, _) => other.keyText == key.keyText) && uniqueKeys rest

/-- Whether a key asks for the pairs of other mappings. -/
def Node.isMerge : Node → Bool
  | .scalar none "<<" plain => plain
  | .scalar (some tag) "<<" _ => tag == "!!merge"
  | _ => false

/-- What stands under the key `<<`, if the mapping has it. -/
def mergeSource? (pairs : List (Node × Node)) : Option Node :=
  (pairs.reverse.find? fun (key, _) => key.isMerge).map Prod.snd

/-- Whether a node says of itself that it is a text. -/
def Node.saysText : Node → Bool
  | .scalar none text plain =>
    !plain || match resolve true text with
      | .text _ => true
      | _ => false
  | .scalar (some tag) _ _ => tag == "!!str" || tag == "!!merge"
  | .sequence tag _ => tag == some "!!str" || tag == some "!!merge"
  | .mapping tag _ => tag == some "!!str" || tag == some "!!merge"
  | .alias _ _ _ => false

/-- Whether a key says of itself that it is a text; an alias says what the node says that it names. -/
def saysText (y : Yaml) : Bool :=
  match y.node with
  | .alias _ _ target => ((y.document.anchored.lookup target).map Node.saysText).getD false
  | node => node.saysText

/-- The text of a key. A null is none, and neither is a collection, which has no place there. -/
def keyName? (y : Yaml) : Reading (Option String) := do
  match (← y.enter).node with
  | .scalar tag text plain =>
    let s ← scalarOf tag text plain
    match s.meaning with
    | .null => return none
    | _ => return some s.text
  | _ => passOver

/-- Whether two scalars stand for the same. What is not a number is like nothing else. -/
def Meaning.same : Meaning → Meaning → Bool
  | .null, .null => true
  | .bool a, .bool b => a == b
  | .int a, .int b => a == b
  | .float a, .float b => a == b
  | .time a, .time b => a == b
  | .text a, .text b => a == b
  | _, _ => false

/-- What a key stands for. -/
inductive Key where
  | scalar (m : Meaning)
  | collection (k : CollectionKey)

/-- The keys that were met. -/
abbrev Met := List Meaning

namespace Met

/-- Whether a scalar was met. -/
def holds (met : Met) (m : Meaning) : Bool := met.any m.same

/-- Whether a key was met. -/
def find (met : Met) : Key → Reading Bool
  | .scalar m => return met.holds m
  | .collection k => throw (.broken (if met.isEmpty then .firstKey k else .key k))

/-- Keeps a key. -/
def keep (met : Met) : Key → Reading Met
  | .scalar m => return if met.holds m then met else m :: met
  | .collection k => throw (.broken (.key k))

end Met

/-- Reads the mappings under the key `<<` of a mapping one after the other. -/
def eachSource {σ : Type} (y : Yaml) (source : Node)
    (step : Yaml → List (Node × Node) → σ → Reading σ) (s : σ) : Reading σ :=
  let one (s : σ) (item : Node) : Reading σ := do
    let y ← (y.child item).enter
    match y.node with
    | .mapping _ pairs => step y pairs s
    | _ => refuse
  match source with
  | .sequence _ items => items.foldlM one s
  | other => one s other

/-! ## Keys as values -/

mutual

/-- Reads a node as a value of its own. A mapping that occurs in the keys of a taking mapping shares the
keys that are met with it. -/
def key : (fuel : Nat) → (met : Option Met) → Yaml → Reading (Option Key × Option Met)
  | 0, _, _ => refuse
  | fuel + 1, met, y => do
    let y ← y.enter
    match y.node with
    | .scalar tag text plain => return (some (.scalar (← scalarOf tag text plain).meaning), met)
    | .sequence _ items =>
      let met ← items.foldlM (fun met item => do return (← key fuel met (y.child item)).2) met
      return (some (.collection .sequence), met)
    | .mapping _ pairs =>
      if uniqueKeys pairs then
        let texts := pairs.all fun (k, _) => (y.child k).saysText
        let met ← innerPairs fuel texts met y pairs
        return (some (.collection (if texts then .textMapping else .mapping)), met)
      else
        noteMismatch
        return (none, met)
    | .alias _ _ _ => refuse

/-- Reads the pairs of a mapping inside a key, and those it takes from others. Its keys are read as
texts if all of them say that they are. -/
def innerPairs : (fuel : Nat) → (texts : Bool) → (met : Option Met) → Yaml → List (Node × Node) →
    Reading (Option Met)
  | 0, _, _, _, _ => refuse
  | fuel + 1, texts, met, y, pairs => do
    let own ← pairs.foldlM (fun met (k, value) => do
      if k.isMerge then return met
      let found ←
        if texts then (·.map fun s => Key.scalar (.text s)) <$> keyName? (y.child k)
        else Prod.fst <$> key fuel none (y.child k)
      match found with
      | none => return met
      | some found =>
        let again ← match met with
          | some met => met.find found
          | none => pure false
        if again then return met
        let met ← met.mapM (·.keep found)
        match found with
        | .collection _ => refuse
        | .scalar _ => pure ()
        let _ ← key fuel none (y.child value)
        return met) met
    match mergeSource? pairs with
    | none => return own
    | some source =>
      let known ← match own with
        | some known => pure known
        | none => keysOf fuel y pairs
      let known ← eachSource y source (fun y pairs known => do
        if uniqueKeys pairs then return (← innerPairs fuel texts (some known) y pairs).getD known
        noteMismatch
        return known) known
      return own.map fun _ => known

/-- The keys of a mapping that takes pairs from others. -/
def keysOf : (fuel : Nat) → Yaml → List (Node × Node) → Reading Met
  | 0, _, _ => refuse
  | fuel + 1, y, pairs =>
    pairs.foldlM (fun met (k, _) => do
      match ← key fuel (some met) (y.child k) with
      | (some found, shared) => (shared.getD met).keep found
      | (none, shared) => return shared.getD met) []

end

/-! ## Taking pairs -/

/-- A pair of a mapping whose key is a text. -/
structure Entry where
  name : String
  value : Yaml
  /-- Whether it comes from another mapping. -/
  merged : Bool
  /-- Whether its key was met before. -/
  again : Bool
  /-- Whether the mapping it stands in calls itself a null. -/
  inNull : Bool

/-- What is done with a pair. -/
abbrev Put (α : Type) := Entry → α → Reading α

/-- Whether a mapping calls itself a null. -/
def Node.isNullMapping : Node → Bool
  | .mapping tag _ => tag == some "!!null"
  | _ => false

/-- Takes the own pairs of a mapping in the order of the text; also gives the keys that were met. A pair
of another mapping is only taken if its key is new. -/
def putPairs {α : Type} (put : Put α) (y : Yaml) (merged : Bool) (pairs : List (Node × Node))
    (met : Met) (old : α) : Reading (α × Met) :=
  pairs.foldlM (fun (acc, met) (k, value) => do
    if k.isMerge then return (acc, met)
    match ← keyName? (y.child k) with
    | none => return (acc, met)
    | some name =>
      let again := met.holds (.text name)
      if merged && again then return (acc, met)
      let acc ← put ⟨name, y.child value, merged, again, y.node.isNullMapping⟩ acc
      return (acc, .text name :: met)) (old, met)

/-- Takes the pairs of a mapping and those it takes from others. `met` are the keys that must not be
taken from it, if it is one of these others. A mapping with a repeated key is passed over. -/
def putMapping {α : Type} (put : Put α) : (fuel : Nat) → (met : Option Met) → (y : Yaml) →
    List (Node × Node) → (old : α) → Reading (α × Met)
  | 0, _, _, _, _ => refuse
  | fuel + 1, met, y, pairs, old => do
    if !uniqueKeys pairs then
      noteMismatch
      return (old, met.getD [])
    let (found, own) ← putPairs put y met.isSome pairs (met.getD []) old
    match mergeSource? pairs with
    | none => return (found, own)
    | some source =>
      let known ← match met with
        | some _ => pure own
        | none => keysOf fuel y pairs
      eachSource y source (fun y pairs (acc, known) => putMapping put fuel (some known) y pairs acc)
        (found, known)

/-- More than the number of steps into each other that reading a mapping takes. -/
def depthOf (y : Yaml) : Nat := 4 * y.document.steps + 8

end BlockWorld.Data.Yaml
