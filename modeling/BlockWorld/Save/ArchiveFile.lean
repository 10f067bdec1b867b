import BlockWorld.Save.Archive
/-!
Archives in files. A save is written to a temporary file beside its place and moved there when it
is finished, so that the place holds the old save or the new one at any time.
-/
namespace BlockWorld.Save

/-- How the entries of an archive file are packed. -/
inductive Compression where
  | deflate | zstd
  deriving DecidableEq, Repr

/-- The name of a compression. -/
def Compression.name : Compression → String
  | .deflate => "deflate"
  | .zstd => "zstd"

/-- The compression of a name (`ValidCompression`). -/
def Compression.ofName? (name : String) : Option Compression :=
  if name = "deflate" then some .deflate else if name = "zstd" then some .zstd else none

/-- An archive file that is being written. -/
structure ArchiveWriter where
  path : String
  /-- The file that holds the entries until they are complete. -/
  temp : String
  entries : Entries
  finished : Bool

namespace ArchiveWriter

/-- Starts an archive file. No name for the compression means `deflate`. Stands for `CreateZip`. -/
def create (fs : Files) (path compression : String) :
    Files × Except ArchiveError ArchiveWriter :=
  if compression ≠ "" ∧ (Compression.ofName? compression).isNone then
    (fs, .error (.compression compression))
  else
    let folder := Text.folderOf path
    match fs.mkdirAll folder with
    | (fs, .error e) => (fs, .error (.saveFolder e))
    | (fs, .ok ()) =>
      match fs.createTemp folder (Text.lastName path) with
      | .error e => (fs, .error (.tempFile e))
      | .ok (temp, fs) => (fs, .ok ⟨path, temp, .empty, false⟩)

/-- Adds an entry. One with the name of a folder stays empty. Stands for `ZipWriter.WriteEntry`. -/
def write (w : ArchiveWriter) (name : String) (data : ByteArray) :
    ArchiveWriter × Except ArchiveError Unit :=
  if w.finished then (w, .error (.fileClosed w.path))
  else if name.endsWith "/" then
    ({ w with entries := w.entries.insert name .empty },
      if data.size = 0 then .ok () else .error (.folderEntry name))
  else ({ w with entries := w.entries.insert name data }, .ok ())

/-- The writer as a sink. -/
def sink : Sink ArchiveWriter := ⟨write⟩

/-- Finishes the archive and moves it to its place. If that fails nothing of it is left. A finished
archive stays as it is. -/
def close (w : ArchiveWriter) (fs : Files) : ArchiveWriter × Files × Except ArchiveError Unit :=
  if w.finished then (w, fs, .ok ())
  else
    let done := { w with finished := true }
    match (fs.put ((fs.key? w.temp).getD []) (.archive w.entries)).rename w.temp w.path with
    | .ok fs => (done, fs, .ok ())
    | .error e => (done, fs.removeAt w.temp, .error (.replaceFile e))

/-- Gives the archive up. A finished archive stays as it is. Stands for `ZipWriter.Abort`. -/
def abort (w : ArchiveWriter) (fs : Files) : ArchiveWriter × Files :=
  if w.finished then (w, fs)
  else ({ w with finished := true }, fs.removeAt w.temp)

end ArchiveWriter

/-- Finished entries as a source. -/
def Entries.source (e : Entries) : Source where
  names := .ok e.names
  read name :=
    match e.get? name with
    | some data => .ok data
    | none => .error (.absentEntry name)

/-- An archive file that is open for reading. -/
structure ArchiveReader where
  path : String
  entries : Entries
  isOpen : Bool

namespace ArchiveReader

/-- What a reader sees. A closed one still knows the names. -/
def source (r : ArchiveReader) : Source where
  names := .ok r.entries.names
  read name :=
    match r.entries.source.read name with
    | .ok data => if r.isOpen then .ok data else .error (.readClosed name r.path)
    | .error e => .error e

/-- Closes a reader. -/
def close (r : ArchiveReader) : ArchiveReader × Except ArchiveError Unit :=
  if r.isOpen then ({ r with isOpen := false }, .ok ()) else (r, .error (.closedTwice r.path))

end ArchiveReader

/-- The entries of the archive file at a path. They stay readable when the file is replaced. Stands for
`OpenZip`. -/
def Files.openArchive (fs : Files) (path : String) : Except ArchiveError Entries :=
  match fs.stat path with
  | .error p => .error (.openFile path (.opening path p))
  | .ok .folder => .error (.openFile path (.reading path .isDirectory))
  | .ok (.file _) => .error (.notArchive path)
  | .ok (.archive entries) => .ok entries

end BlockWorld.Save
