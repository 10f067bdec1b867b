import BlockWorld.Log.Logger
/-!
The loggers of a program: a main logger, and one for each component, made when it is first used.
The levels of a component can be set before or after its logger is made, with the same effect.
-/
namespace BlockWorld.Log

open Save

/-- The components whose levels can be set (`KnownComponents`). -/
def components : List String := ["world", "storage", "terrain", "http"]

/-- Why levels cannot be set. -/
inductive LevelError where
  | unknownComponent (name : String)
  | unknownLevel (component : String) (e : Level.UnknownLevel)
  deriving DecidableEq, Repr

/-- The wording of a refusal. -/
def LevelError.message : LevelError → String
  | .unknownComponent name => "unknown log component " ++ Text.quote name
  | .unknownLevel component e => "log level for " ++ component ++ ": " ++ e.message

instance : Fault LevelError := ⟨LevelError.message, fun _ => []⟩

/-- Reads levels for components; nothing is read if one of them is wrong (`CheckLevels`). -/
def readLevels : List (String × String) → Except LevelError (List (String × Level))
  | [] => .ok []
  | (name, text) :: rest =>
    if name ∈ components then
      match Level.parse text with
      | .error e => .error (.unknownLevel name e)
      | .ok level =>
        match readLevels rest with
        | .error e => .error e
        | .ok others => .ok ((name, level) :: others)
    else .error (.unknownComponent name)

/-- The thresholds for console and file. -/
structure Levels where
  console : Level
  file : Level
  deriving DecidableEq, Repr

/-- The loggers of a program, and the files they write. -/
structure Manager where
  options : Options
  /-- The logger of the program itself. -/
  main : Logger
  /-- The loggers in use, by component. -/
  loggers : List (String × Logger)
  /-- Levels that have been set, by component. -/
  overrides : List (String × Levels)
  files : Files

namespace Manager

/-- The loggers before anything is configured. -/
def initial (files : Files) : Manager :=
  ⟨.initial, .consoleOnly "" .info, [], [], files⟩

/-- Sets the options of loggers that are made from now on (`Configure`). -/
def configure (m : Manager) (options : Options) : Manager := { m with options }

/-- Writes a message with a given logger; gives the lines on the console. -/
def writeWith (m : Manager) (l : Logger) (message : Message) : Manager × List String :=
  let (files, lines) := l.write message m.files
  ({ m with files }, lines)

/-- Writes a message with the main logger. -/
def writeMain (m : Manager) (message : Message) : Manager × List String :=
  m.writeWith m.main message

/-- Makes the main logger anew for a component (`InitDefaultLogger`). -/
def setMain (m : Manager) (now : Data.Timestamp) (component : String) :
    Manager × Except LoggerError Unit :=
  match Logger.create m.options now component m.files with
  | (files, .ok main) => ({ m with files, main }, .ok ())
  | (files, .error e) => ({ m with files }, .error e)

/-- A logger with the levels that have been set for its component. -/
def adjusted (m : Manager) (component : String) (l : Logger) : Logger :=
  match m.overrides.lookup component with
  | some o => l.setLevels o.console o.file
  | none => l

/-- Makes the logger of a component. Without a file it writes to the console only, and the main
logger says why. -/
def make (m : Manager) (now : Data.Timestamp) (component : String) :
    Manager × Logger × List String :=
  match Logger.create m.options now component m.files with
  | (files, .ok l) => ({ m with files }, l, [])
  | (files, .error e) =>
    let text := "Логгер " ++ component ++ " без файла: " ++ e.message
    let (m, lines) := { m with files }.writeMain ⟨.warn, text⟩
    (m, .consoleOnly component m.options.console, lines)

/-- The logger of a component, made when it is first used (`LoggerManager.Logger`). -/
def logger (m : Manager) (now : Data.Timestamp) (component : String) :
    Manager × Logger × List String :=
  match m.loggers.lookup component with
  | some l => (m, l, [])
  | none =>
    let (m, l, lines) := m.make now component
    let l := m.adjusted component l
    ({ m with loggers := m.loggers ++ [(component, l)] }, l, lines)

/-- Writes a message with the logger of a component. -/
def write (m : Manager) (now : Data.Timestamp) (component : String) (message : Message) :
    Manager × List String :=
  let (m, l, before) := m.logger now component
  let (m, lines) := m.writeWith l message
  (m, before ++ lines)

/-- Sets the levels of a component that is known. -/
def override (m : Manager) (component : String) (levels : Levels) : Manager :=
  { m with
    overrides := (component, levels) :: m.overrides.filter (·.1 != component)
    loggers := m.loggers.map fun (c, l) =>
      if c = component then (c, l.setLevels levels.console levels.file) else (c, l) }

/-- Sets the levels of a component (`LoggerManager.SetLevel`). -/
def setLevel (m : Manager) (component : String) (levels : Levels) : Except LevelError Manager :=
  if component ∈ components then .ok (m.override component levels)
  else .error (.unknownComponent component)

/-- Sets the levels of several components for console and file alike, or of none of them
(`LoggerManager.ApplyLevels`). -/
def applyLevels (m : Manager) (levels : List (String × String)) : Except LevelError Manager :=
  (readLevels levels).map fun parsed =>
    parsed.foldl (fun m (component, level) => m.override component ⟨level, level⟩) m

/-- The components with a logger in use, in order (`LoggerManager.Active`). -/
def active (m : Manager) : List String := (m.loggers.map (·.1)).mergeSort (· ≤ ·)

/-- Closes the loggers of all components. The levels set for them stay. Stands for `LoggerManager.CloseAll`.
-/
def closeAll (m : Manager) : Manager := { m with loggers := [] }

/-- Closes the file of the main logger (`CloseDefaultLogger`). -/
def closeMain (m : Manager) : Manager := { m with main := m.main.close }

end Manager

end BlockWorld.Log
