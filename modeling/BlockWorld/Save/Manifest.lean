import BlockWorld.Data.Yaml.Writer
import BlockWorld.Save.Archive
import BlockWorld.Text.Uuid
/-!
The manifest of a save: the format, whose world it is, when it was made, and how many megachunks
it holds. It is an entry of its own, a YAML mapping with one line per field.
-/
namespace BlockWorld.Save

open Data

/-- The description of a save. -/
structure Manifest where
  format : Int64
  worldId : String
  seed : Int64
  createdAt : Timestamp
  savedAt : Timestamp
  megachunks : Int64
  compression : String
  deriving DecidableEq, Repr

/-- Why a manifest is refused. -/
inductive ManifestError where
  /-- The entry cannot be read. -/
  | unreadable (e : ArchiveError)
  /-- The entry cannot be written. -/
  | unwritable (e : ArchiveError)
  | parse (e : Yaml.Failure)
  | format (n : Int64)
  | worldId (id : String) (problem : Text.Uuid.Problem)
  | negativeCount (n : Int64)
  deriving DecidableEq, Repr

namespace ManifestError

/-- The wording of a refusal. -/
def message : ManifestError → String
  | .unreadable e => e.message
  | .unwritable e => e.message
  | .parse e => Fault.during "parse manifest" e
  | .format n => "format " ++ Text.integer n ++ ": unsupported save format"
  | .worldId id problem => "manifest world id " ++ Text.quote id ++ ": " ++ problem.message
  | .negativeCount n => "manifest megachunk count " ++ Text.integer n ++ " is negative"

/-- The reasons of a refusal. -/
def reasons : ManifestError → List Reason
  | .unreadable e => e.reasons
  | .unwritable e => e.reasons
  | .parse e => e.reasons
  | .format _ => [.unsupportedFormat]
  | _ => []

instance : Fault ManifestError := ⟨message, reasons⟩

end ManifestError

namespace Manifest

/-- The name of the entry. -/
def entryName : String := "level.yaml"

/-- The format that this library writes and reads. -/
def currentFormat : Int64 := 1

/-- The manifest before any field is read. -/
def blank : Manifest := ⟨0, "", 0, .zero, .zero, 0, ""⟩

instance : Inhabited Manifest := ⟨blank⟩

/-! ## Writing -/

/-- The text of a manifest. The compression is left out when it is empty. -/
def text (m : Manifest) : String :=
  "format: " ++ Text.integer m.format ++ "\n" ++
  "world_id: " ++ Yaml.scalarLine m.worldId ++
  "seed: " ++ Text.integer m.seed ++ "\n" ++
  "created_at: " ++ m.createdAt.text ++ "\n" ++
  "saved_at: " ++ m.savedAt.text ++ "\n" ++
  "megachunks: " ++ Text.integer m.megachunks ++ "\n" ++
  (if m.compression = "" then "" else "compression: " ++ Yaml.scalarLine m.compression)

/-! ## Reading -/

/-- How the fields are read. -/
def fields : List (Yaml.Field Manifest) :=
  [Yaml.field "format" Yaml.int64 (·.format) fun m v => { m with format := v },
   Yaml.field "world_id" Yaml.string (·.worldId) fun m v => { m with worldId := v },
   Yaml.field "seed" Yaml.int64 (·.seed) fun m v => { m with seed := v },
   Yaml.field "created_at" Yaml.timestamp (·.createdAt) fun m v => { m with createdAt := v },
   Yaml.field "saved_at" Yaml.timestamp (·.savedAt) fun m v => { m with savedAt := v },
   Yaml.field "megachunks" Yaml.int64 (·.megachunks) fun m v => { m with megachunks := v },
   Yaml.field "compression" Yaml.string (·.compression) fun m v => { m with compression := v }]

/-- Checks the values of a manifest. -/
def check (m : Manifest) : Except ManifestError Manifest :=
  if m.format < 1 ∨ currentFormat < m.format then .error (.format m.format)
  else
    match Text.Uuid.check m.worldId with
    | .error problem => .error (.worldId m.worldId problem)
    | .ok () => if m.megachunks < 0 then .error (.negativeCount m.megachunks) else .ok m

/-- The bytes of a manifest (`Manifest.Marshal`). -/
def encode (m : Manifest) : ByteArray := m.text.toUTF8

/-- Reads and checks the bytes of a manifest (`ParseManifest`). -/
def decode (data : ByteArray) : Except ManifestError Manifest :=
  match Yaml.decode (Yaml.record fields) blank data with
  | .error e => .error (.parse e)
  | .ok m => m.check

/-- Reads and checks the text of a manifest. -/
def ofText (s : String) : Except ManifestError Manifest := decode s.toUTF8

/-- Reads the manifest of a save; a save need not have one (`ReadManifest`). -/
def readFrom (source : Source) : Except ManifestError (Option Manifest) :=
  match source.read entryName with
  | .error e => if e.isAbsent then .ok none else .error (.unreadable e)
  | .ok data =>
    match decode data with
    | .ok m => .ok (some m)
    | .error e => .error e

/-- Writes the manifest of a save (`WriteManifest`). -/
def writeTo {σ : Type} (sink : Sink σ) (m : Manifest) (s : σ) : σ × Except ManifestError Unit :=
  match sink.write s entryName m.encode with
  | (s, .ok ()) => (s, .ok ())
  | (s, .error e) => (s, .error (.unwritable e))

end Manifest

end BlockWorld.Save
