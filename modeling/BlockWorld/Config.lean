import BlockWorld.Data.Yaml.Field
import BlockWorld.Log.Manager
import BlockWorld.Save.Disk
/-!
The configuration of the server: defaults, a YAML text that changes some of them, and checks of
what cannot be mended silently.
-/
namespace BlockWorld

open Data Save

/-- The settings of the world. -/
structure Config.World where
  savePath : String
  seed : Int64
  /-- How far around the origin chunks are filled at the start. -/
  spawnRadius : Int64
  blockCatalog : String

/-- The settings of the storage. -/
structure Config.Storage where
  backend : String
  compression : String
  storePath : String

/-- The settings of the HTTP server. -/
structure Config.Server where
  httpPort : Int64
  maxRaycastDistance : Float
  maxCollideExtent : Float

/-- The settings of the log. -/
structure Config.Log where
  dir : String
  consoleLevel : String
  fileLevel : String
  /-- The levels of single components. -/
  components : List (String × String)

/-- All settings. -/
structure Config where
  world : Config.World
  storage : Config.Storage
  server : Config.Server
  log : Config.Log

/-- A setting that cannot be used. -/
inductive Config.Problem where
  | savePathMissing
  | storePathMissing
  | backend (name : String)
  | compression (name : String)
  | negativeRadius
  | raycastDistance
  | collideExtent
  | consoleLevel (e : BlockWorld.Log.Level.UnknownLevel)
  | fileLevel (e : BlockWorld.Log.Level.UnknownLevel)
  | components (e : BlockWorld.Log.LevelError)
  deriving DecidableEq, Repr

/-- The wording of a problem. -/
def Config.Problem.message : Config.Problem → String
  | .savePathMissing => "world.save_path is required for the zip backend"
  | .storePathMissing => "storage.badger_path is required for the badger backend"
  | .backend name => "unknown storage backend " ++ Text.quote name
  | .compression name => "unknown storage compression " ++ Text.quote name
  | .negativeRadius => "world.spawn_radius_chunks must not be negative"
  | .raycastDistance => "server.max_raycast_distance must be positive"
  | .collideExtent => "server.max_collide_extent must be positive"
  | .consoleLevel e => "log.console_level: " ++ e.message
  | .fileLevel e => "log.file_level: " ++ e.message
  | .components e => "log.components: " ++ e.message

instance : Fault Config.Problem := ⟨Config.Problem.message, fun _ => []⟩

/-- Why a configuration cannot be loaded. -/
inductive Config.LoadError where
  | file (e : FileError)
  | parse (path : String) (e : Yaml.Failure)
  | invalid (path : String) (p : Config.Problem)
  deriving DecidableEq, Repr

/-- The wording of a failed load. -/
def Config.LoadError.message : Config.LoadError → String
  | .file e => e.message
  | .parse path e => Fault.during ("parse config " ++ path) e
  | .invalid path p => "config " ++ path ++ ": " ++ p.message

/-- The reasons of a failed load. -/
def Config.LoadError.reasons : Config.LoadError → List Reason
  | .file e => e.reasons
  | .parse _ e => e.reasons
  | .invalid _ _ => []

instance : Fault Config.LoadError := ⟨Config.LoadError.message, Config.LoadError.reasons⟩

namespace Config

/-- The settings without any file (`Default`). -/
def default : Config where
  world := ⟨"data/world.zip", 12345, 2, ""⟩
  storage := ⟨"zip", "zstd", "data/badger"⟩
  server := ⟨0, 256, 64⟩
  log := ⟨"", "INFO", "DEBUG", []⟩

instance : Inhabited Config := ⟨default⟩

/-! ## Reading -/

/-- How the settings of the world are read. -/
def World.fields : List (Yaml.Field Config.World) :=
  [Yaml.field "save_path" Yaml.string (·.savePath) fun c v => { c with savePath := v },
   Yaml.field "seed" Yaml.int64 (·.seed) fun c v => { c with seed := v },
   Yaml.field "spawn_radius_chunks" Yaml.int64 (·.spawnRadius) fun c v => { c with spawnRadius := v },
   Yaml.field "block_catalog" Yaml.string (·.blockCatalog) fun c v => { c with blockCatalog := v }]

/-- How the settings of the storage are read. -/
def Storage.fields : List (Yaml.Field Config.Storage) :=
  [Yaml.field "backend" Yaml.string (·.backend) fun c v => { c with backend := v },
   Yaml.field "compression" Yaml.string (·.compression) fun c v => { c with compression := v },
   Yaml.field "badger_path" Yaml.string (·.storePath) fun c v => { c with storePath := v }]

/-- How the settings of the HTTP server are read. -/
def Server.fields : List (Yaml.Field Config.Server) :=
  [Yaml.field "http_port" Yaml.int64 (·.httpPort) fun c v => { c with httpPort := v },
   Yaml.field "max_raycast_distance" Yaml.double (·.maxRaycastDistance)
    fun c v => { c with maxRaycastDistance := v },
   Yaml.field "max_collide_extent" Yaml.double (·.maxCollideExtent)
    fun c v => { c with maxCollideExtent := v }]

/-- How the settings of the log are read. -/
def Log.fields : List (Yaml.Field Config.Log) :=
  [Yaml.field "dir" Yaml.string (·.dir) fun c v => { c with dir := v },
   Yaml.field "console_level" Yaml.string (·.consoleLevel) fun c v => { c with consoleLevel := v },
   Yaml.field "file_level" Yaml.string (·.fileLevel) fun c v => { c with fileLevel := v },
   Yaml.field "components" Yaml.texts (·.components) fun c v => { c with components := v }]

/-- How the groups of settings are read. -/
def fields : List (Yaml.Field Config) :=
  [Yaml.field "world" (Yaml.record World.fields) (·.world) fun c v => { c with world := v },
   Yaml.field "storage" (Yaml.record Storage.fields) (·.storage) fun c v => { c with storage := v },
   Yaml.field "server" (Yaml.record Server.fields) (·.server) fun c v => { c with server := v },
   Yaml.field "log" (Yaml.record Log.fields) (·.log) fun c v => { c with log := v }]

/-- Reads the bytes of a configuration over the defaults. -/
def decode (data : ByteArray) : Except Yaml.Failure Config :=
  Yaml.decode (Yaml.record fields) default data

/-! ## Checking -/

/-- The kind of storage, whose path has to be there. -/
def backend (c : Config) : Except Problem Backend :=
  if c.storage.backend = "zip" then
    if c.world.savePath = "" then .error .savePathMissing else .ok .file
  else if c.storage.backend = "badger" then
    if c.storage.storePath = "" then .error .storePathMissing else .ok .generations
  else .error (.backend c.storage.backend)

/-- Names the setting that a level belongs to. -/
def checkLevel (text : String) (problem : BlockWorld.Log.Level.UnknownLevel → Problem) :
    Except Problem Unit :=
  match BlockWorld.Log.Level.parse text with
  | .ok _ => .ok ()
  | .error e => .error (problem e)

/-- The first problem of a configuration (`Config.Validate`). -/
def validate (c : Config) : Except Problem Unit := do
  let _ ← c.backend
  if (Compression.ofName? c.storage.compression).isNone then
    throw (.compression c.storage.compression)
  if c.world.spawnRadius < 0 then throw .negativeRadius
  if c.server.maxRaycastDistance ≤ 0 then throw .raycastDistance
  if c.server.maxCollideExtent ≤ 0 then throw .collideExtent
  checkLevel c.log.consoleLevel .consoleLevel
  checkLevel c.log.fileLevel .fileLevel
  match BlockWorld.Log.readLevels c.log.components with
  | .ok _ => return ()
  | .error e => throw (.components e)

/-- Loads the configuration at a path; without a path it is the default one (`Load`). -/
def load (fs : Files) (path : String) : Except LoadError Config :=
  if path = "" then .ok default
  else
    match fs.readFile path with
    | .error e => .error (.file e)
    | .ok data =>
      match decode data with
      | .error e => .error (.parse path e)
      | .ok c =>
        match c.validate with
        | .error p => .error (.invalid path p)
        | .ok () => .ok c

/-! ## Use -/

/-- The port that is used when none is given. -/
def defaultPort : Int64 := 8088

/-- The port of the HTTP server: from the configuration, else from the environment, else the default one.
Only positive ports count. Stands for `ServerConfig.GetHTTPPort`. -/
def port (c : Config) (environment : String) : Int64 :=
  if c.server.httpPort > 0 then c.server.httpPort
  else
    match Text.readInteger environment.toList with
    | .ok n => if n > 0 then n else defaultPort
    | .error _ => defaultPort

/-- Where the world is saved. -/
def location (c : Config) : Location :=
  if c.storage.backend = "badger" then ⟨.generations, c.storage.storePath⟩
  else ⟨.file, c.world.savePath⟩

end Config

end BlockWorld
