import BlockWorld.Data.Timestamp
import BlockWorld.Log.Level
import BlockWorld.Save.Files
/-!
Loggers. A logger belongs to a component and writes lines to the console and, if there is a folder
for it, to a file of its own. Each of the two has its threshold.
-/
namespace BlockWorld.Log

open Save

/-- Where loggers write, and what they let through. -/
structure Options where
  /-- The folder of the files; none if it is empty. -/
  dir : String
  console : Level
  file : Level
  deriving DecidableEq, Repr, Inhabited

/-- What a logger does before anything else is said. -/
def Options.initial : Options := ⟨"", .info, .debug⟩

/-- A logger. -/
structure Logger where
  component : String
  console : Level
  /-- The path of its file. -/
  file : Option String
  fileLevel : Level
  deriving DecidableEq, Repr, Inhabited

/-- Why a logger has no file. -/
inductive LoggerError where
  | folder (e : FileError)
  | file (e : FileError)
  deriving DecidableEq, Repr

namespace LoggerError

/-- The wording of a failure. -/
def message : LoggerError → String
  | .folder e => "create log directory: " ++ e.message
  | .file e => "create log file: " ++ e.message

/-- The reasons of a failure. -/
def reasons : LoggerError → List Reason
  | .folder e => e.reasons
  | .file e => e.reasons

instance : Fault LoggerError := ⟨message, reasons⟩

end LoggerError

/-- A message as a line: the level, the component if it has a name, and the text. -/
def line (component : String) (m : Message) : String :=
  let tag := if component = "" then "" else "[" ++ component ++ "] "
  "[" ++ m.level.name ++ "] " ++ tag ++ m.text

/-- A text with an end of line, unless it has one. -/
def terminated (s : String) : String := if s.endsWith "\n" then s else s ++ "\n"

/-- The lines of a text; the end of the last line starts no line of its own. -/
def linesOf (s : String) : List String :=
  ((terminated s).splitOn "\n").dropLast

namespace Logger

/-- What follows the component in the name of a file: the time at which it is made. -/
def nameTail (now : Data.Timestamp) : String := "_" ++ now.fileText ++ ".log"

/-- The file of a component. -/
def filePath (dir component : String) (now : Data.Timestamp) : String :=
  Text.joinPath dir (component ++ nameTail now)

/-- A logger that writes to the console only. -/
def consoleOnly (component : String) (console : Level) : Logger := ⟨component, console, none, .off⟩

/-- A logger that writes nothing (`Discard`). -/
def silent : Logger := consoleOnly "" .off

/-- Makes the logger of a component, and its file if there is a folder for it (`NewLogger`). -/
def create (o : Options) (now : Data.Timestamp) (component : String) (fs : Files) :
    Files × Except LoggerError Logger :=
  if o.dir = "" then (fs, .ok (consoleOnly component o.console))
  else
    match fs.mkdirAll o.dir with
    | (fs, .error e) => (fs, .error (.folder e))
    | (fs, .ok ()) =>
      let path := filePath o.dir component now
      match fs.appendFile path .empty with
      | .error e => (fs, .error (.file e))
      | .ok fs => (fs, .ok ⟨component, o.console, some path, o.file⟩)

/-- Sets the thresholds; that of the file counts only where there is a file (`Logger.applyLevels`). -/
def setLevels (l : Logger) (console file : Level) : Logger :=
  { l with console, fileLevel := if l.file.isSome then file else l.fileLevel }

/-- Closes the file. The logger goes on writing to the console. Stands for `Logger.Close`. -/
def close (l : Logger) : Logger := { l with file := none }

/-- Whether a message reaches the file. -/
def toFile (l : Logger) (m : Message) : Option String :=
  if m.level.passes l.fileLevel then l.file else none

/-- Writes a message; gives the files and the lines on the console (`Logger.logMessage`). -/
def write (l : Logger) (m : Message) (fs : Files) : Files × List String :=
  let text := line l.component m
  let fs :=
    match l.toFile m with
    | none => fs
    | some path =>
      match fs.appendFile path (terminated text).toUTF8 with
      | .ok fs => fs
      | .error _ => fs
  (fs, if m.level.passes l.console then linesOf text else [])

end Logger

/-- The component that a file belongs to, if the name of the file is that of a log. -/
def journalOwner? (name : String) : Option String :=
  let tail := (Logger.nameTail .zero).length
  if name.endsWith ".log" then some (String.ofList (name.toList.take (name.length - tail))) else none

/-- The logs in a folder: components and lines, in the order of the components. -/
def journals (fs : Files) (dir : String) : List (String × List String) :=
  let folder := fs.key? dir
  let found := fs.nodes.filterMap fun
    | (key, .file data) =>
      if some key.dropLast = folder then
        (key.getLast?.bind journalOwner?).map fun owner => (owner, (String.fromUTF8? data).getD "")
      else none
    | _ => none
  (found.mergeSort fun a b => a.1 ≤ b.1).map fun (owner, text) =>
    (owner, if text = "" then [] else linesOf text)

end BlockWorld.Log
