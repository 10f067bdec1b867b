import BlockWorld.Megachunk.Codec
import BlockWorld.Save.EntryName
import BlockWorld.Save.Manifest
import BlockWorld.World.Basic
/-!
Saving a world as an archive and loading it again. A save has one entry per megachunk and a
manifest. Loading checks all entries before the world changes, so that it loads all or nothing.
-/
namespace BlockWorld.World

open Grid Save

/-! ## Saving -/

/-- Why a world could not be saved. -/
inductive SaveError where
  | encode (mega : Coord) (e : Megachunk.HeaderError)
  | write (mega : Coord) (e : ArchiveError)
  | manifest (e : ManifestError)
  deriving DecidableEq, Repr

/-- The wording of a failed save. -/
def SaveError.message : SaveError → String
  | .encode mega e => "serialize megachunk " ++ mega.text ++ ": " ++ e.message
  | .write mega e => "write megachunk " ++ mega.text ++ ": " ++ e.message
  | .manifest e => e.message

/-- The reasons of a failed save. -/
def SaveError.reasons : SaveError → List Reason
  | .encode _ _ => [.outOfRange]
  | .write _ e => e.reasons
  | .manifest e => e.reasons

instance : Fault SaveError := ⟨SaveError.message, SaveError.reasons⟩

/-- Writes the entries of megachunks. -/
def writeMegachunks {σ : Type} (w : World) (sink : Sink σ) :
    List Coord → σ → σ × Except SaveError Unit
  | [], s => (s, .ok ())
  | c :: rest, s =>
    match ((w.megachunks[c]?).getD (.empty c)).encode w.arena with
    | .error e => (s, .error (.encode c e))
    | .ok data =>
      match sink.write s (EntryName.ofCoord c) data with
      | (s, .error e) => (s, .error (.write c e))
      | (s, .ok ()) => writeMegachunks w sink rest s

/-- The manifest of a world. -/
def manifest (w : World) (savedAt : Data.Timestamp) : Manifest :=
  ⟨Manifest.currentFormat, w.id, w.seed, w.createdAt, savedAt, Int64.ofNat w.megachunkCount,
    w.compression⟩

/-- Writes the entries of a world, the manifest last (`World.saveTo`). -/
def writeEntries {σ : Type} (w : World) (savedAt : Data.Timestamp) (sink : Sink σ) (s : σ) :
    σ × Except SaveError Unit :=
  match w.writeMegachunks sink w.coords s with
  | (s, .error e) => (s, .error e)
  | (s, .ok ()) =>
    match (w.manifest savedAt).writeTo sink s with
    | (s, .ok ()) => (s, .ok ())
    | (s, .error e) => (s, .error (.manifest e))

/-- Saves a world into a sink (`World.SaveTo`). -/
def saveTo {σ : Type} (w : World) (savedAt : Data.Timestamp) (sink : Sink σ) (s : σ) :
    σ × Except SaveError Unit × World :=
  match w.writeEntries savedAt sink s with
  | (s, .ok ()) =>
    (s, .ok (), { w with gauges := w.gauges.saved true }.note
      (.saved w.megachunkCount w.chunkCount))
  | (s, .error e) =>
    (s, .error e, { w with gauges := w.gauges.saved false }.note (.saveFailed e.message))

/-! ## Loading -/

/-- Why a save could not be loaded. -/
inductive LoadError where
  | manifest (e : ManifestError)
  | list (e : ArchiveError)
  | read (name : String) (e : ArchiveError)
  | decode (name : String) (e : Megachunk.DecodeError)
  /-- The entry holds another megachunk than its name says. -/
  | misnamed (name : String) (held : Coord)
  | repeated (mega : Coord)
  /-- The manifest counts other megachunks than there are. -/
  | count (listed : Int64) (held : Nat)
  deriving DecidableEq, Repr

/-- The wording of a failed load. -/
def LoadError.message : LoadError → String
  | .manifest e =>
    if Fault.isBreakdown e then e.message else "manifest: " ++ e.message ++ ": corrupt data"
  | .list e => e.message
  | .read name e => "read " ++ name ++ ": " ++ e.message
  | .decode name e => "decode " ++ name ++ ": " ++ e.message
  | .misnamed name held =>
    "entry " ++ name ++ " holds megachunk " ++ held.text ++ ": corrupt data"
  | .repeated mega => "megachunk " ++ mega.text ++ " stored twice: corrupt data"
  | .count listed held =>
    "manifest lists " ++ Text.integer listed ++ " megachunks, archive holds " ++ toString held ++
      ": corrupt data"

/-- The reasons of a failed load. -/
def LoadError.reasons : LoadError → List Reason
  | .manifest e => if Fault.isBreakdown e then e.reasons else .corrupt :: e.reasons
  | .list e => e.reasons
  | .read _ e => e.reasons
  | _ => [.corrupt]

instance : Fault LoadError := ⟨LoadError.message, LoadError.reasons⟩

/-- Whether a load failed because of its data (`IsCorrupt`). -/
def LoadError.isCorrupt (e : LoadError) : Bool := e.reasons.contains .corrupt

/-- A checked entry whose chunks are not made yet. -/
structure ParsedMegachunk where
  coord : Coord
  data : ByteArray
  records : List Megachunk.Record

/-- Reads and checks one entry. -/
def parseEntry (source : Source) (seen : List Coord) (name : String) (coord : Coord) :
    Except (LoadError × Option Event) ParsedMegachunk :=
  match source.read name with
  | .error e => .error (.read name e, none)
  | .ok data =>
    match Megachunk.parse data with
    | .error e => .error (.decode name e, some (.entryCorrupt name data))
    | .ok (held, records) =>
      if held ≠ coord then .error (.misnamed name held, none)
      else if coord ∈ seen then .error (.repeated coord, none)
      else .ok ⟨coord, data, records⟩

/-- Reads and checks the entries of megachunks among some names; other names are passed over. -/
def parseEntries (source : Source) :
    (seen : List Coord) → List String → Except (LoadError × Option Event) (List ParsedMegachunk)
  | _, [] => .ok []
  | seen, name :: rest =>
    match EntryName.parse? name with
    | none => parseEntries source seen rest
    | some coord =>
      match parseEntry source seen name coord with
      | .error e => .error e
      | .ok p =>
        match parseEntries source (coord :: seen) rest with
        | .error e => .error e
        | .ok others => .ok (p :: others)

/-- A save whose entries have all been checked. -/
structure ParsedSave where
  manifest : Option Manifest
  megachunks : List ParsedMegachunk

/-- Reads and checks a save. A failure may come with an event for the log. Stands for `World.loadFrom`. -/
def parseSave (source : Source) : Except (LoadError × Option Event) ParsedSave :=
  match Manifest.readFrom source with
  | .error e => .error (.manifest e, none)
  | .ok manifest =>
    match source.names with
    | .error e => .error (.list e, none)
    | .ok names =>
      match parseEntries source [] names with
      | .error e => .error e
      | .ok megachunks =>
        match manifest with
        | some m =>
          if m.megachunks = Int64.ofNat megachunks.length then .ok ⟨manifest, megachunks⟩
          else .error (.count m.megachunks megachunks.length, none)
        | none => .ok ⟨manifest, megachunks⟩

/-- Puts a checked megachunk into a world. -/
def place (w : World) (p : ParsedMegachunk) : World :=
  let (m, arena) := Megachunk.ofRecords p.coord p.data p.records w.arena
  { w with megachunks := w.megachunks.insert p.coord m, arena }

/-- Takes seed, name and time of creation from a manifest. -/
def adopt (w : World) : Option Manifest → World
  | some m => { w with id := m.worldId, seed := m.seed, createdAt := m.createdAt }
  | none => w

/-- Replaces the contents of a world by a checked save. -/
def replaceBy (w : World) (save : ParsedSave) : World :=
  (save.megachunks.foldl place { w with megachunks := ∅, arena := w.arena.clear }).adopt
    save.manifest

/-- Loads a save; if it cannot be loaded the world keeps what it has. A breakdown leaves no trace. Stands
for `World.LoadFrom`. -/
def loadFrom (w : World) (source : Source) : Except LoadError Unit × World :=
  match parseSave source with
  | .ok save =>
    let w := (w.replaceBy save)
    let w := { w with gauges := w.gauges.loaded true }.observe
    (.ok (), w.note (.loaded save.megachunks.length w.chunkCount))
  | .error (e, event) =>
    if Fault.isBreakdown e then (.error e, w)
    else
      let w := match event with
        | some event => w.note event
        | none => w
      (.error e, { w with gauges := w.gauges.loaded false }.note (.loadFailed e.message))

end BlockWorld.World
