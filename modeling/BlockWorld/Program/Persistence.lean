import BlockWorld.Save.Disk
import BlockWorld.World.File
/-!
Where the server keeps its world: an archive file, or a store of generations that stays open while the
server runs. A save that fails is given up and leaves the one before it in place.
-/
namespace BlockWorld.Program.Persistence

open Save

/-! ## Loading -/

/-- The stored save, if there is one. -/
def findSave (l : Location) (d : Disk) : Except ArchiveError (Option Source) :=
  match l.backend with
  | .file =>
    match d.files.openArchive l.path with
    | .ok entries => .ok (some entries.source)
    | .error e => if e.reasons.contains .notExist then .ok none else .error e
  | .generations =>
    let store := d.store l.path
    match store.newReader with
    | .ok reader => .ok (some (store.source reader))
    | .error e => if e.reasons.contains .noSave then .ok none else .error e

/-- Why a world could not be loaded. -/
inductive LoadFailure where
  /-- The save cannot be opened. -/
  | unopened (e : ArchiveError)
  | refused (e : World.LoadError)
  deriving DecidableEq, Repr

/-- Loads the stored save into a world; tells whether there was one (`persistence.load`). -/
def load (l : Location) (w : World) (d : Disk) : Except LoadFailure Bool × World :=
  match findSave l d with
  | .error e => (.error (.unopened e), w)
  | .ok none => (.ok false, w)
  | .ok (some source) =>
    match w.loadFrom source with
    | (.ok (), w) => (.ok true, w)
    | (.error e, w) => (.error (.refused e), w)

/-! ## Saving -/

/-- The identifier that the next save gets, if it is a generation. -/
def nextId (l : Location) (d : Disk) : String := (d.store l.path).nextId

/-- Starts a save; the compression counts for archive files, and the identifier for generations. -/
def openSink (l : Location) (compression id : String) (d : Disk) :
    Disk × Except ArchiveError Disk.OpenSink :=
  match l.backend with
  | .file => d.openSink l compression
  | .generations =>
    match (d.store l.path).start id with
    | (s, .error e) => (d.setStore l.path s, .error e)
    | (s, .ok w) => (d.setStore l.path s, .ok (.generation l.path w))

/-- What a save leaves: the disk, the world with its books, how it ended, and notices for the log. -/
structure Saved where
  disk : Disk
  world : World
  result : Except World.FileSaveError Unit
  notices : List GenerationNotice

/-- Saves a world through a sink. A save that fails is given up. Stands for `persistence.save`. -/
def save (sink : Sink Disk.OpenSink) (l : Location) (id : String) (savedAt : Data.Timestamp)
    (w : World) (d : Disk) : Saved :=
  match openSink l w.compression id d with
  | (d, .error e) => ⟨d, w, .error (.archive e), []⟩
  | (d, .ok out) =>
    match w.saveTo savedAt sink out with
    | (out, .error e, w) =>
      let (d, notices) := d.abortSink out
      ⟨d, w, .error (.save e), notices⟩
    | (out, .ok (), w) =>
      let (d, result, notices) := d.finishSink out
      ⟨d, w, result.mapError .archive, notices⟩

end BlockWorld.Program.Persistence
