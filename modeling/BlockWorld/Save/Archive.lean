import BlockWorld.Save.Files
import BlockWorld.Text.Quoted
/-!
Archives: what saves are read from and written to. A source lists names and gives the bytes of
each; a sink takes named bytes. Both may fail. This module also holds the archive in memory, which
can be told where to fail, and the copying of all entries from a source to a sink.
-/
namespace BlockWorld.Save

/-- Why an archive cannot do what it is asked. -/
inductive ArchiveError where
  /-- The archive was told to fail. -/
  | injected
  /-- There is no entry of the name asked for. -/
  | absent
  /-- There is no entry of this name. -/
  | absentEntry (name : String)
  /-- A finished archive file takes no more entries. -/
  | fileClosed (path : String)
  /-- An entry with the name of a folder holds no bytes. -/
  | folderEntry (name : String)
  /-- The compression is not known. -/
  | compression (method : String)
  /-- The folder of an archive file cannot be made. -/
  | saveFolder (e : FileError)
  /-- The temporary file cannot be made. -/
  | tempFile (e : FileError)
  /-- The finished file cannot be moved to its place. -/
  | replaceFile (e : FileError)
  /-- An archive file cannot be read. -/
  | openFile (path : String) (e : FileError)
  /-- A file is no archive. -/
  | notArchive (path : String)
  /-- An entry is read after its archive file was closed. -/
  | readClosed (name path : String)
  /-- An archive file is closed twice. -/
  | closedTwice (path : String)
  /-- A store has no finished save. -/
  | noSave
  /-- A store cannot be opened. -/
  | openStore
  /-- A store has been closed. -/
  | storeClosed
  /-- A finished generation takes no more entries. -/
  | generationClosed
  /-- The entries of a generation reach the store only after it was closed. -/
  | lateFlush
  /-- A closed store is read. -/
  | lateRead
  deriving DecidableEq, Repr

namespace ArchiveError

/-- The wording of a failure. -/
def message : ArchiveError → String
  | .injected => "injected failure"
  | .absent => "archive entry not found"
  | .absentEntry name => name ++ ": archive entry not found"
  | .fileClosed path => "zip writer for " ++ path ++ " is closed"
  | .folderEntry name => "write entry " ++ name ++ ": zip: write to directory"
  | .compression method => "unknown compression " ++ Text.quote method
  | .saveFolder e => "create save directory: " ++ e.message
  | .tempFile e => "create temp save: " ++ e.message
  | .replaceFile e => "replace save: " ++ e.message
  | .openFile path e => "open save " ++ path ++ ": " ++ e.message
  | .notArchive path => "open save " ++ path ++ ": zip: not a valid zip file"
  | .readClosed name path => "open entry " ++ name ++ ": read " ++ path ++ ": file already closed"
  | .closedTwice path => "close " ++ path ++ ": file already closed"
  | .noSave => "no save found"
  | .openStore => "не удалось открыть BadgerDB: badger"
  | .storeClosed => "хранилище не готово"
  | .generationClosed => "badger writer is closed"
  | .lateFlush =>
    let blocked := "Writes are blocked, possibly due to DropAll or Close"
    "ошибка сохранения в BadgerDB: wb.err: " ++ blocked ++ " err: " ++ blocked
  | .lateRead => "ошибка чтения из BadgerDB: DB Closed"

/-- The reasons of a failure. -/
def reasons : ArchiveError → List Reason
  | .injected => [.injected]
  | .absent => [.entryNotFound]
  | .absentEntry _ => [.entryNotFound]
  | .saveFolder e => e.reasons
  | .tempFile e => e.reasons
  | .replaceFile e => e.reasons
  | .openFile _ e => e.reasons
  | .noSave => [.noSave]
  | _ => []

instance : Fault ArchiveError := ⟨message, reasons⟩

/-- Whether a failure says that an entry is missing. -/
def isAbsent (e : ArchiveError) : Bool := e.reasons.contains .entryNotFound

end ArchiveError

/-- What a save is read from. -/
structure Source where
  names : Except ArchiveError (List String)
  read : String → Except ArchiveError ByteArray

/-- What a save is written to: a state that takes one entry after the other. A refused entry may
still leave its mark on the state. -/
structure Sink (σ : Type) where
  write : σ → String → ByteArray → σ × Except ArchiveError Unit

/-! ## Archives in memory -/

/-- An archive in memory, with the names at which it fails. -/
structure MemoryArchive where
  entries : Entries
  failList : Bool
  failRead : List String
  failWrite : List String

namespace MemoryArchive

/-- An archive without entries and faults. -/
def empty : MemoryArchive := ⟨.empty, false, [], []⟩

instance : Inhabited MemoryArchive := ⟨empty⟩

/-- Reads an entry. -/
def read (a : MemoryArchive) (name : String) : Except ArchiveError ByteArray :=
  if name ∈ a.failRead then .error .injected
  else
    match a.entries.get? name with
    | some data => .ok data
    | none => .error .absent

/-- The archive as a source. -/
def source (a : MemoryArchive) : Source :=
  ⟨if a.failList then .error .injected else .ok a.entries.names, a.read⟩

/-- Writes an entry. -/
def write (a : MemoryArchive) (name : String) (data : ByteArray) :
    MemoryArchive × Except ArchiveError Unit :=
  if name ∈ a.failWrite then (a, .error .injected)
  else ({ a with entries := a.entries.insert name data }, .ok ())

/-- The archive as a sink. -/
def sink : Sink MemoryArchive := ⟨write⟩

end MemoryArchive

/-! ## Copying -/

/-- Why a copy stopped. -/
inductive CopyError where
  | list (e : ArchiveError)
  | read (name : String) (e : ArchiveError)
  | write (name : String) (e : ArchiveError)
  deriving DecidableEq, Repr

namespace CopyError

/-- The wording of a stopped copy. -/
def message : CopyError → String
  | .list e => "list entries: " ++ e.message
  | .read name e => "read " ++ name ++ ": " ++ e.message
  | .write name e => "write " ++ name ++ ": " ++ e.message

/-- The failure that stopped a copy. -/
def cause : CopyError → ArchiveError
  | .list e => e
  | .read _ e => e
  | .write _ e => e

/-- The reasons of a stopped copy. -/
def reasons (e : CopyError) : List Reason := e.cause.reasons

instance : Fault CopyError := ⟨message, reasons⟩

end CopyError

/-- What a copy did: the sink after it, the number of entries copied, and why it stopped early. -/
structure CopyResult (σ : Type) where
  sink : σ
  copied : Nat
  error : Option CopyError

/-- Copies the entries of the given names, `done` having been copied before. -/
def copyNames {σ : Type} (sink : Sink σ) (source : Source) :
    (done : Nat) → List String → σ → CopyResult σ
  | done, [], s => ⟨s, done, none⟩
  | done, name :: rest, s =>
    match source.read name with
    | .error e => ⟨s, done, some (.read name e)⟩
    | .ok data =>
      match sink.write s name data with
      | (s, .error e) => ⟨s, done, some (.write name e)⟩
      | (s, .ok ()) => copyNames sink source (done + 1) rest s

/-- Copies all entries of a source, in the order in which it lists them (`Copy`). -/
def copy {σ : Type} (sink : Sink σ) (source : Source) (s : σ) : CopyResult σ :=
  match source.names with
  | .error e => ⟨s, 0, some (.list e)⟩
  | .ok names => copyNames sink source 0 names s

end BlockWorld.Save
