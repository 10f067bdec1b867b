import BlockWorld.Log.Logger
import BlockWorld.Program.Flags
import BlockWorld.Program.Run
import BlockWorld.World.Save
/-!
The save tool: it shows what a save holds, lists the chunks of a megachunk, and converts saves from
one kind to the other. A save that cannot be loaded is not converted.
-/
namespace BlockWorld.Program.SaveTool

open Grid Save

/-- Why a coordinate cannot be read. -/
inductive CoordError where
  | form (text : String)
  | component (text part : String) (e : Text.IntegerFault)
  deriving DecidableEq, Repr

/-- The wording of an unreadable coordinate. -/
def CoordError.message : CoordError → String
  | .form text => "coordinate " ++ Text.quote text ++ ": want x,y,z"
  | .component text part e =>
    "coordinate " ++ Text.quote text ++ ": strconv.Atoi: parsing " ++ Text.quote part ++ ": " ++
      e.message

instance : Fault CoordError := ⟨CoordError.message, fun _ => []⟩

/-- Reads a coordinate such as `1,-2,3`; blanks around the numbers do not matter (`parseCoord`). -/
def parseCoord (text : String) : Except CoordError Coord :=
  let component (part : List Char) : Except CoordError Int64 :=
    let part := Text.trimChars part
    match Text.readInteger part with
    | .ok n => .ok n
    | .error e => .error (.component text (String.ofList part) e)
  match text.toList.splitOn ',' with
  | [x, y, z] => do return ⟨← component x, ← component y, ← component z⟩
  | _ => .error (.form text)

/-- Why the tool fails. -/
inductive Failure where
  | archive (e : ArchiveError)
  | manifest (e : ManifestError)
  | load (e : World.LoadError)
  | coord (e : CoordError)
  | absent (mega : Coord)
  | noDestination
  | copy (e : CopyError)
  deriving DecidableEq, Repr

/-- The wording of a failure. -/
def Failure.message : Failure → String
  | .archive e => e.message
  | .manifest e => e.message
  | .load e => e.message
  | .coord e => e.message
  | .absent mega => "megachunk " ++ mega.text ++ " not in save"
  | .noDestination => "convert needs -dst"
  | .copy e => e.message

/-- The reasons of a failure. -/
def Failure.reasons : Failure → List Reason
  | .archive e => e.reasons
  | .manifest e => e.reasons
  | .load e => e.reasons
  | .copy e => e.reasons
  | _ => []

instance : Fault Failure := ⟨Failure.message, Failure.reasons⟩

/-- What a command does: the texts it writes or why it fails, and the disk. -/
abbrev Command := Disk → Disk × Except Failure (List String)

/-- Opens a save, hands it to a command, and closes it. -/
def withSource (location : String) (body : Source → Command) : Command := fun d =>
  match d.openSource (.parse location) with
  | (d, .error e) => (d, .error (.archive e))
  | (d, .ok save) =>
    let (d, result) := body save.source d
    (d.closeSource save, result)

/-- Loads a save into a new world (`loadWorld`). -/
def loadWorld (source : Source) : Except Failure World :=
  match (World.new 0 "" .zero "").loadFrom source with
  | (.ok (), w) => .ok w
  | (.error e, _) => .error (.load e)

/-- A text filled up with blanks on the right. -/
def padRight (width : Nat) (s : String) : String :=
  s ++ String.ofList (List.replicate (width - s.length) ' ')

/-- A number filled up with blanks on the left. -/
def padLeft (width n : Nat) : String :=
  let s := toString n
  String.ofList (List.replicate (width - s.length) ' ') ++ s

/-- The lines about a manifest. -/
def manifestLines : Option Manifest → List String
  | some m =>
    ["   world:       " ++ m.worldId, "   seed:        " ++ Text.integer m.seed,
     "   created:     " ++ m.createdAt.plainText, "   saved:       " ++ m.savedAt.plainText,
     "   compression: " ++ m.compression]
  | none => ["   ⚠️  " ++ Manifest.entryName ++ " not found"]

/-- The lines about a world. -/
def worldLines (w : World) : List String :=
  ["   megachunks:  " ++ toString w.megachunkCount, "   chunks:      " ++ toString w.chunkCount] ++
  w.coords.map fun c =>
    "   " ++ padRight 16 c.text ++ " " ++ padLeft 4 (((w.megachunks[c]?).map (·.count)).getD 0) ++
      " chunks"

/-- Shows what a save holds (`showInfo`). -/
def info (location : String) : Command :=
  withSource location fun source d =>
    (d, do
      let manifest ← (Manifest.readFrom source).mapError .manifest
      let w ← loadWorld source
      return ("📦 Save " ++ location) :: (manifestLines manifest ++ worldLines w))

/-- The line about a chunk of a megachunk. -/
def chunkLine (l : Local) (data : ChunkData) : String :=
  "   " ++ (if data.generated then "G" else " ") ++ " " ++ padRight 12 l.toCoord.text ++ " solid=" ++
    toString data.chunk.countSolid

/-- Lists the chunks of a megachunk (`dumpMegaChunk`). -/
def dump (location coord : String) : Command := fun d =>
  match parseCoord coord with
  | .error e => (d, .error (.coord e))
  | .ok c =>
    withSource location (fun source d =>
      (d, do
        let w ← loadWorld source
        match w.megachunks[c]? with
        | none => throw (.absent c)
        | some m =>
          return ("🧱 Megachunk " ++ c.text ++ ": " ++ toString m.count ++ " chunks") ::
            (m.chunks w.arena).map fun (l, data) => chunkLine l data)) d

/-- Copies all entries of a save into a new one. -/
def copySave (source : Source) (target : Location) (compression : String) :
    Disk → Disk × Except Failure Nat := fun d =>
  match d.openSink target compression with
  | (d, .error e) => (d, .error (.archive e))
  | (d, .ok sink) =>
    let result := copy Disk.OpenSink.sink source sink
    match result.error with
    | some e => ((d.abortSink result.sink).1.closeSink result.sink, .error (.copy e))
    | none =>
      let (d, finished, _) := d.finishSink result.sink
      (d.closeSink result.sink,
        match finished with
        | .ok () => .ok result.copied
        | .error e => .error (.archive e))

/-- Converts a save (`convert`). -/
def convert (source target compression : String) : Command := fun d =>
  if target = "" then (d, .error .noDestination)
  else
    withSource source (fun entries d =>
      match loadWorld entries with
      | .error e => (d, .error e)
      | .ok _ =>
        let (d, result) := copySave entries (.parse target) compression d
        (d, result.map fun n =>
          ["✅ Copied " ++ toString n ++ " entries: " ++ source ++ " → " ++ target])) d

/-- The options of the tool. -/
def options : List Flag :=
  [.text "cmd", .text "src", .text "dst", .text "compression", .text "mega"] ++ storeFlags

/-- The lines of texts that each end a line. -/
def linesOf (texts : List String) : List String := texts.flatMap fun s => s.splitOn "\n"

/-- Runs a command to its end. -/
def finish (d : Disk) (command : Command) : Run :=
  match command d with
  | (d, .ok texts) => ⟨0, linesOf texts, [], d⟩
  | (d, .error e) =>
    if Fault.isBreakdown e then ⟨breakdownCode, [], [breakdownLine e], d⟩
    else ⟨1, [], Log.linesOf ("❌ " ++ e.message), d⟩

/-- Runs the tool. -/
def run (args : List String) (d : Disk) : Run :=
  match readFlags options [] args with
  | .error e => ⟨e.exitCode, [], e.lines ++ [usage], d⟩
  | .ok flags =>
    let source := flag flags "src" ""
    if source = "" then ⟨2, [], [usage], d⟩
    else
      match flag flags "cmd" "info" with
      | "info" => finish d (info source)
      | "dump" => finish d (dump source (flag flags "mega" "0,0,0"))
      | "convert" =>
        finish d (convert source (flag flags "dst" "")
          (flag flags "compression" Compression.zstd.name))
      | other => ⟨2, linesOf ["❌ Unknown command: " ++ other], [], d⟩

end BlockWorld.Program.SaveTool
