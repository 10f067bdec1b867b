import BlockWorld.Block.Catalog
import BlockWorld.Config
import BlockWorld.Http.Address
import BlockWorld.Http.Server
import BlockWorld.Program.Flags
import BlockWorld.Program.Persistence
import BlockWorld.Program.Run
import BlockWorld.Terrain.Generate
import BlockWorld.Terrain.Generator
/-!
The world server: it loads the world or makes a new one, fills the chunks around the origin, serves
requests until it is told to stop, and saves the world. A save that cannot be loaded is never
replaced.
-/
namespace BlockWorld.Program.Server

open Save Block

/-- What the outside world gives to a run. -/
structure Environment where
  /-- The path of the configuration that is used when the command line names none. -/
  configPath : String
  /-- The port that is used when the configuration names none. -/
  port : String
  now : Data.Timestamp
  /-- The identifier of a new world. -/
  worldId : String

/-- A request, and what answering it depends on. -/
structure Visit where
  context : Http.Context
  request : Http.Request

/-- A run in progress: the loggers with the files, the stores, and the lines on the console and the
replies, the latest first. -/
structure Running where
  log : Log.Manager
  stores : List (PathKey × Generations)
  now : Data.Timestamp
  console : List String
  replies : List Http.Reply

namespace Running

/-- The disk. -/
def disk (r : Running) : Disk := ⟨r.log.files, r.stores⟩

/-- Replaces the disk. -/
def setDisk (r : Running) (d : Disk) : Running :=
  { r with log := { r.log with files := d.files }, stores := d.stores }

/-- Adds lines to the console. -/
def print (r : Running) (lines : List String) : Running :=
  { r with console := lines.reverse ++ r.console }

/-- Writes a message of the server itself. -/
def say (r : Running) (level : Log.Level) (text : String) : Running :=
  let (log, lines) := r.log.writeMain ⟨level, text⟩
  { r with log }.print lines

/-- Makes sure that a component has its logger. -/
def prepare (r : Running) (component : String) : Running :=
  let (log, _, lines) := r.log.logger r.now component
  { r with log }.print lines

/-- Writes messages of a component. -/
def tell (r : Running) (component : String) (messages : List Log.Message) : Running :=
  messages.foldl (fun r m =>
    let (log, lines) := r.log.write r.now component m
    { r with log }.print lines) r

/-- Writes what happened in a world, and empties its journal. -/
def tellWorld (r : Running) (w : World) : Running × World :=
  (r.tell "world" (w.events.map (·.message)), w.forgetEvents)

end Running

/-- Why a run fails. -/
inductive Failure where
  | catalogFile (path : String) (e : FileError)
  | catalog (path : String) (e : CatalogError)
  | store (e : ArchiveError)
  | openSave (location : Location) (e : ArchiveError)
  | load (location : Location) (e : World.LoadError)
  | listen (e : Http.AddressError)
  | save (e : World.FileSaveError)
  deriving DecidableEq, Repr

/-- The wording of a failure. -/
def Failure.message : Failure → String
  | .catalogFile path e => "каталог блоков " ++ path ++ ": " ++ e.message
  | .catalog path e => Fault.during ("каталог блоков " ++ path) e
  | .store e => "open badger: " ++ e.message
  | .openSave location e => "загрузка мира из " ++ location.text ++ ": " ++ e.message
  | .load location e => Fault.during ("загрузка мира из " ++ location.text) e
  | .listen e => "HTTP API: " ++ e.message
  | .save e => "сохранение мира: " ++ Fault.message e

/-- The reasons of a failure. -/
def Failure.reasons : Failure → List Reason
  | .catalogFile _ e => e.reasons
  | .catalog _ e => e.reasons
  | .store e => e.reasons
  | .openSave _ e => e.reasons
  | .load _ e => e.reasons
  | .listen e => Fault.reasons e
  | .save e => Fault.reasons e

instance : Fault Failure := ⟨Failure.message, Failure.reasons⟩

/-- The block types of a configuration: the usual ones and those of its catalogue. -/
def loadCatalog (path : String) (r : Running) : Running × Except Failure Registry :=
  if path = "" then (r, .ok .builtin)
  else
    match r.disk.files.readFile path with
    | .error e => (r, .error (.catalogFile path e))
    | .ok data =>
      match Registry.builtin.addCatalog data with
      | .error e => (r, .error (.catalog path e))
      | .ok (n, registry) =>
        (r.say .info ("Загружено " ++ toString n ++ " типов блоков из " ++ path), .ok registry)

/-- Opens what the world is stored in, if it has to be opened. -/
def openStorage (l : Location) (r : Running) : Running × Except Failure Unit :=
  match l.backend with
  | .file => (r, .ok ())
  | .generations =>
    match r.disk.openStore l.path with
    | (d, .error e) => (r.setDisk d, .error (.store e))
    | (d, .ok ()) => ((r.setDisk d).prepare "storage", .ok ())

/-- Closes what the world is stored in. -/
def closeStorage (l : Location) (r : Running) : Running :=
  match l.backend with
  | .file => r
  | .generations => r.setDisk (r.disk.closeStore l.path)

/-- Loads the stored save into a world; tells whether there was one. -/
def loadWorld (l : Location) (w : World) (r : Running) :
    Running × Except Failure (Bool × World) :=
  let (result, w) := Persistence.load l w r.disk
  let (r, w) := r.tellWorld w
  match result with
  | .error (.unopened e) => (r, .error (.openSave l e))
  | .error (.refused e) => (r, .error (.load l e))
  | .ok found => (r, .ok (found, w))

/-- Saves a world. -/
def saveWorld (l : Location) (w : World) (r : Running) :
    Running × World × Except World.FileSaveError Unit :=
  let saved := Persistence.save Disk.OpenSink.sink l (Persistence.nextId l r.disk) r.now w r.disk
  let (r, w) := (r.setDisk saved.disk).tellWorld saved.world
  (r.tell "storage" (saved.notices.map (·.message)), w, saved.result)

/-- Says whether a save was found. -/
def announce (l : Location) (found : Bool) (w : World) (r : Running) : Running :=
  if found then
    r.say .info ("📦 Мир " ++ w.id ++ " загружен из " ++ l.text ++ ": " ++
      toString w.megachunkCount ++ " мегачанков")
  else r.say .info ("Сохранение " ++ l.text ++ " не найдено, создаётся новый мир")

/-- Fills the chunks around the origin. -/
def fillSpawn (radius : Int64) (w : World) (r : Running) : Running × World :=
  let r := r.prepare "terrain"
  let filling := Terrain.generateSpawn .world (Terrain.Generator.ofSeed w.seed).landscape radius w
  let (r, w) := r.tellWorld filling.target
  (r.tell "terrain" ((filling.notices radius).map (·.message)), w)

/-- Announces the addresses and starts to listen. -/
def listen (port : Int64) (r : Running) : Running × Except Failure Unit :=
  let address := ":" ++ Text.integer port
  let r := (r.prepare "http").tell "http" [Http.listening address]
  let r := r.say .info "✅ Сервер готов"
  let r := r.say .info ("   🌐 HTTP API: http://localhost" ++ address)
  let r := r.say .info ("   ❤️  Health check: http://localhost" ++ address ++ "/health")
  match Http.checkAddress address with
  | .error e => (r, .error (.listen e))
  | .ok _ => (r, .ok ())

/-- Saving on request. -/
def saver (l : Location) : Http.Saver Running := fun w r =>
  match saveWorld l w r with
  | (r, w, .ok ()) => (.saved, w, r)
  | (r, w, .error e) => (.failed (Fault.message e), w, r)

/-- Answers a request. -/
def answer (l : Location) (state : Http.Service × Running) (v : Visit) : Http.Service × Running :=
  let served := Http.serve (some (saver l)) v.context state.1 state.2 v.request
  let (r, world) := (served.store.tell "http" served.messages).tellWorld served.service.world
  ({ served.service with world }, { r with replies := served.reply :: r.replies })

/-- Serves a world until the signal to stop, and saves it. -/
def serve (c : Config) (port : Int64) (registry : Registry) (visits : List Visit) (w : World)
    (r : Running) : Running × Except Failure Unit :=
  match listen port r with
  | (r, .error e) => (r, .error e)
  | (r, .ok ()) =>
    let service := .new w registry c.server.maxRaycastDistance c.server.maxCollideExtent
    let (service, r) := visits.foldl (answer c.location) (service, r)
    let r := r.say .info "📡 Получен сигнал terminated, завершение работы..."
    match saveWorld c.location service.world r with
    | (r, _, .error e) => (r, .error (.save e))
    | (r, _, .ok ()) =>
      (r.say .info ("👋 Мир сохранён в " ++ c.location.text ++ ", сервер остановлен"), .ok ())

/-- Loads or makes the world and serves it. -/
def runWorld (c : Config) (env : Environment) (registry : Registry) (visits : List Visit)
    (w : World) (r : Running) : Running × Except Failure Unit :=
  match loadWorld c.location w r with
  | (r, .error e) => (r, .error e)
  | (r, .ok (found, w)) =>
    let r := announce c.location found w r
    let (r, w) := fillSpawn c.world.spawnRadius w r
    serve c (c.port env.port) registry visits w r

/-- Runs the server with a configuration (`run`). -/
def runConfig (c : Config) (env : Environment) (visits : List Visit) (r : Running) :
    Running × Except Failure Unit :=
  let r := r.say .info "🎮 Запуск воксельного сервера мира..."
  match loadCatalog c.world.blockCatalog r with
  | (r, .error e) => (r, .error e)
  | (r, .ok registry) =>
    let r := r.prepare "world"
    let w := World.new c.world.seed env.worldId env.now c.storage.compression
    match openStorage c.location r with
    | (r, .error e) => (r, .error e)
    | (r, .ok ()) =>
      let (r, result) := runWorld c env registry visits w r
      (closeStorage c.location r, result)

/-- The levels of a configuration that has been checked. -/
def logOptions (c : Config) : Log.Options :=
  let level (text : String) : Log.Level := (Log.Level.parse text).toOption.getD .info
  ⟨c.log.dir, level c.log.consoleLevel, level c.log.fileLevel⟩

/-- The end of a run of the server: the replies it gave stand beside what any program leaves. -/
structure Ending extends Run where
  replies : List Http.Reply

/-- The end of a run that fails before anything is served. -/
def Ending.early (exitCode : Nat) (stderr : List String) (d : Disk) : Ending :=
  ⟨⟨exitCode, [], stderr, d⟩, []⟩

/-- The options of the server. -/
def options : List Flag := .text "config" :: storeFlags

/-- The end of a run that has got as far as serving. -/
def Running.ending (r : Running) (exitCode : Nat) (stderr : List String) : Ending :=
  ⟨⟨exitCode, r.console.reverse, stderr, r.disk⟩, r.replies.reverse⟩

/-- Sets up the loggers, runs the server, and reports a failure. A breakdown never gets to the log. -/
def runLogged (c : Config) (env : Environment) (visits : List Visit) (d : Disk) : Ending :=
  let log := (Log.Manager.initial d.files).configure (logOptions c)
  let fail (log : Log.Manager) (text : String) : Ending := .early 1 (Log.linesOf text) ⟨log.files, d.stores⟩
  match log.applyLevels c.log.components with
  | .error e => fail log ("❌ Ошибка настройки уровней логирования: " ++ e.message)
  | .ok log =>
    match log.setMain env.now "server" with
    | (log, .error e) => fail log ("❌ Ошибка инициализации логирования: " ++ e.message)
    | (log, .ok ()) =>
      match runConfig c env visits ⟨log, d.stores, env.now, [], []⟩ with
      | (r, .ok ()) => r.ending 0 []
      | (r, .error e) =>
        if Fault.isBreakdown e then r.ending breakdownCode [breakdownLine e]
        else (r.say .error ("❌ " ++ e.message)).ending 1 []

/-- Runs the server. It answers the requests of `visits` and is then told to stop. Stands for `main`. -/
def run (args : List String) (env : Environment) (visits : List Visit) (d : Disk) : Ending :=
  match readFlags options [] args with
  | .error e => .early e.exitCode (e.lines ++ [usage]) d
  | .ok flags =>
    let named := flag flags "config" ""
    match Config.load d.files (if named = "" then env.configPath else named) with
    | .error e =>
      if Fault.isBreakdown e then .early breakdownCode [breakdownLine e] d
      else .early 1 (Log.linesOf ("❌ Ошибка загрузки конфигурации: " ++ e.message)) d
    | .ok c => runLogged c env visits d

end BlockWorld.Program.Server
