import BlockWorld.Block.Registry
import BlockWorld.Data.Yaml.Field
import BlockWorld.Fault
/-!
Catalogues of block types: YAML texts that add types to a registry. Either all types of a
catalogue are added or none is.
-/
namespace BlockWorld.Block

open Data

/-- A type that a catalogue describes. -/
structure CatalogEntry where
  id : BlockId
  properties : Properties

/-- The entry before any field is read. -/
def CatalogEntry.blank : CatalogEntry := ⟨0, ⟨"", false, 0⟩⟩

/-- Why a catalogue is refused. -/
inductive CatalogError where
  | parse (e : Yaml.Failure)
  /-- An entry describes air. -/
  | reserved
  /-- An entry has no name. -/
  | unnamed (id : BlockId)
  deriving DecidableEq, Repr

/-- The wording of a refusal. -/
def CatalogError.message : CatalogError → String
  | .parse e => Fault.during "parse block catalog" e
  | .reserved => "block catalog: id 0 is reserved for air"
  | .unnamed id => "block catalog: id " ++ toString id.toNat ++ " has no name"

/-- The reasons of a refusal. -/
def CatalogError.reasons : CatalogError → List Reason
  | .parse e => e.reasons
  | _ => []

instance : Fault CatalogError := ⟨CatalogError.message, CatalogError.reasons⟩

/-- How the fields of an entry are read. Those of the properties stand beside the number. -/
def CatalogEntry.fields : List (Yaml.Field CatalogEntry) :=
  [Yaml.field "id" Yaml.uint16 (·.id) fun e v => { e with id := v },
   Yaml.innerField "name" Yaml.string (·.properties.name) fun e v => { e with properties.name := v },
   Yaml.innerField "transparent" Yaml.boolean (·.properties.transparent)
    fun e v => { e with properties.transparent := v },
   Yaml.innerField "hardness" Yaml.single (·.properties.hardness)
    fun e v => { e with properties.hardness := v }]

/-- How the entries of a catalogue are read. -/
def catalogFields : List (Yaml.Field (List CatalogEntry)) :=
  [Yaml.field "blocks" (Yaml.list (Yaml.record CatalogEntry.fields) .blank) id fun _ v => v]

/-- The entries of a catalogue, before they are checked. -/
def catalogEntries (data : ByteArray) : Except Yaml.Failure (List CatalogEntry) :=
  Yaml.decode (Yaml.record catalogFields) [] data

/-- The first fault among entries, in their order. -/
def checkEntries : List CatalogEntry → Except CatalogError Unit
  | [] => .ok ()
  | e :: rest =>
    if e.id = air then .error .reserved
    else if e.properties.name = "" then .error (.unnamed e.id)
    else checkEntries rest

/-- Adds the types of a catalogue to a registry; also gives their number (`ParseCatalog`). -/
def Registry.addCatalog (r : Registry) (data : ByteArray) : Except CatalogError (Nat × Registry) :=
  match catalogEntries data with
  | .error e => .error (.parse e)
  | .ok entries =>
    match checkEntries entries with
    | .error e => .error e
    | .ok () =>
      .ok (entries.length, entries.foldl (fun r e => r.register e.id e.properties) r)

end BlockWorld.Block
