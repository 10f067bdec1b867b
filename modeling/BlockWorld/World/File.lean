import BlockWorld.Save.ArchiveFile
import BlockWorld.World.Save
/-!
Worlds in archive files. A failed save leaves the file as it was.
-/
namespace BlockWorld.World

open Save

/-- Why a world could not be saved into a file. -/
inductive FileSaveError where
  | archive (e : ArchiveError)
  | save (e : SaveError)
  deriving DecidableEq, Repr

instance : Fault FileSaveError where
  message
    | .archive e => e.message
    | .save e => e.message
  reasons
    | .archive e => e.reasons
    | .save e => e.reasons

/-- Saves a world into the archive file at a path (`World.Save`). -/
def saveFile (w : World) (savedAt : Data.Timestamp) (fs : Files) (path : String) :
    Files × Except FileSaveError Unit × World :=
  match ArchiveWriter.create fs path w.compression with
  | (fs, .error e) => (fs, .error (.archive e), w)
  | (fs, .ok out) =>
    match w.saveTo savedAt ArchiveWriter.sink out with
    | (out, .error e, w) => ((out.abort fs).2, .error (.save e), w)
    | (out, .ok (), w) =>
      match out.close fs with
      | (_, fs, .ok ()) => (fs, .ok (), w)
      | (_, fs, .error e) => (fs, .error (.archive e), w)

/-- Why a world could not be loaded from a file. -/
inductive FileLoadError where
  | archive (e : ArchiveError)
  | load (e : LoadError)
  deriving DecidableEq, Repr

instance : Fault FileLoadError where
  message
    | .archive e => e.message
    | .load e => e.message
  reasons
    | .archive e => e.reasons
    | .load e => e.reasons

/-- Loads a world from the archive file at a path (`World.Load`). -/
def loadFile (w : World) (fs : Files) (path : String) : Except FileLoadError Unit × World :=
  match fs.openArchive path with
  | .error e => (.error (.archive e), w)
  | .ok entries =>
    match w.loadFrom entries.source with
    | (.ok (), w) => (.ok (), w)
    | (.error e, w) => (.error (.load e), w)

end BlockWorld.World
