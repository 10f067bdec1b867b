import Std.Time.DateTime.Timestamp
import BlockWorld.Http.RequestHead
import BlockWorld.Program.SaveTool
import BlockWorld.Program.Server
import BlockWorld.Save.Image
/-!
The command line: `server` runs the world server and `save` the save tool, with the options of each
behind it. Saves are kept on a disk in a single file, which the variable `BLOCKWORLD_DISK` names.
The server reads its requests from standard input, one in a line, and stops when they end.
-/
namespace BlockWorld.Main

open Save Program

/-- The file that holds the disk. -/
def diskPath : IO String := do
  return (← IO.getEnv "BLOCKWORLD_DISK").getD "blockworld.disk"

/-- Reads the disk. Where there is no file yet, it is empty. -/
def loadDisk (path : String) : IO Disk := do
  match ← (IO.FS.readBinFile path).toBaseIO with
  | .error (.noFileOrDirectory ..) => return .empty
  | .error e => throw e
  | .ok data =>
    match Image.decode? data with
    | some d => return d
    | none => throw (.userError (path ++ " holds no disk"))

/-- Replaces the disk. -/
def storeDisk (path : String) (d : Disk) : IO Unit := do
  let temp := path ++ ".tmp"
  IO.FS.writeBinFile temp (Image.encode d)
  IO.FS.rename temp path

/-- Puts a file of the host onto the disk, if there is one. -/
def importFile (path : String) (d : Disk) : IO Disk := do
  match ← (IO.FS.readBinFile path).toBaseIO with
  | .error _ => return d
  | .ok data => return { d with files := (d.files.putFile path data).1 }

/-- Puts the configuration and the catalogue that it names onto the disk. -/
def importConfig (path : String) (d : Disk) : IO Disk := do
  let d ← importFile path d
  match Config.load d.files path with
  | .ok c => importFile c.world.blockCatalog d
  | .error _ => return d

/-- Nanoseconds since the start of 1970. -/
def clock : IO Nat := do
  return (← Std.Time.Timestamp.now).toNanosecondsSinceUnixEpoch.val.toNat

/-- A new identifier. -/
def newId : IO String := do return Text.Uuid.ofNat (← IO.rand 0 (UInt64.size - 1))

/-- Reads the requests that are left. A line that is none is refused. -/
partial def readVisits (stdin : IO.FS.Stream) (seconds : Nat) : IO (List Server.Visit) := do
  let line ← stdin.getLine
  if line.isEmpty then return []
  match Http.Request.ofLine line.trimAsciiEnd.toString with
  | .error e => do
    IO.eprintln e.message
    readVisits stdin seconds
  | .ok request =>
    let visit := ⟨⟨← newId, seconds, default⟩, request⟩
    return visit :: (← readVisits stdin seconds)

/-- Shows how a program ended, and gives its exit code. -/
def report (r : Run) : IO UInt32 := do
  r.stdout.forM fun line => IO.println line
  r.stderr.forM fun line => IO.eprintln line
  return r.exitCode.toUInt32

/-- Runs the server. -/
def server (args : List String) : IO UInt32 := do
  let path ← diskPath
  let configPath := (← IO.getEnv "VOXEL_CONFIG").getD ""
  let now ← clock
  let seconds := now / 1000000000
  let env : Server.Environment :=
    ⟨configPath, (← IO.getEnv "VOXEL_HTTP_PORT").getD "", .ofUnix seconds (now % 1000000000), ← newId⟩
  let named := match readFlags Server.options [] args with
    | .ok flags => flag flags "config" configPath
    | .error _ => configPath
  let d ← importConfig named (← loadDisk path)
  let ending := Server.run args env (← readVisits (← IO.getStdin) seconds) d
  storeDisk path ending.disk
  ending.replies.forM fun reply => IO.println (toString reply.status ++ " " ++ reply.content.body)
  report ending.toRun

/-- Runs the save tool. -/
def saveTool (args : List String) : IO UInt32 := do
  let path ← diskPath
  let r := SaveTool.run args (← loadDisk path)
  storeDisk path r.disk
  report r

end BlockWorld.Main

/-- Runs the program that the first argument names. -/
def main (args : List String) : IO UInt32 :=
  match args with
  | "server" :: rest => BlockWorld.Main.server rest
  | "save" :: rest => BlockWorld.Main.saveTool rest
  | _ => do
    IO.eprintln "usage: blockworld (server | save) [options]"
    return 2
