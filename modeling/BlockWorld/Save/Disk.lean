import BlockWorld.Save.Generations
/-!
A disk: a tree of files, and stores of generations in some of its folders.
-/
namespace BlockWorld.Save

/-- Files and stores. -/
structure Disk where
  files : Files
  stores : List (PathKey × Generations)

namespace Disk

/-- A disk without anything on it. -/
def empty : Disk := ⟨.empty, []⟩

instance : Inhabited Disk := ⟨empty⟩

/-- The folder that holds the store of a path. -/
def storeFolder (path : String) : String := Text.joinPath path "world"

/-- The place of the store of a path. -/
def storeKey (d : Disk) (path : String) : PathKey := (d.files.key? (storeFolder path)).getD []

/-- The store of a path; where there is none yet, it is empty. -/
def store (d : Disk) (path : String) : Generations := (d.stores.lookup (d.storeKey path)).getD .empty

/-- Replaces the store of a path. -/
def setStore (d : Disk) (path : String) (s : Generations) : Disk :=
  let key := d.storeKey path
  { d with stores := (key, s) :: d.stores.filter (·.1 != key) }

/-- Opens the store of a path, whose folder is made if it is not there. A store that is open already
cannot be opened again. -/
def openStore (d : Disk) (path : String) : Disk × Except ArchiveError Unit :=
  match d.files.mkdirAll (storeFolder path) with
  | (files, .error _) => ({ d with files }, .error .openStore)
  | (files, .ok ()) =>
    let d := { d with files }
    let s := d.store path
    if s.isOpen then (d, .error .openStore) else (d.setStore path s.reopen, .ok ())

/-- Closes the store of a path. -/
def closeStore (d : Disk) (path : String) : Disk := d.setStore path (d.store path).close

end Disk

/-! ## Places of saves -/

/-- The two kinds of saves. -/
inductive Backend where
  /-- An archive file. -/
  | file
  /-- A store of generations. -/
  | generations
  deriving DecidableEq, Repr

/-- The name of a kind. -/
def Backend.name : Backend → String
  | .file => "zip"
  | .generations => "badger"

/-- Where a save is. -/
structure Location where
  backend : Backend
  path : String
  deriving DecidableEq, Repr

namespace Location

/-- Reads a text such as `zip:world.zip`. Without the name of a kind it is an archive file. Stands for
`parseLocation`. -/
def parse (s : String) : Location :=
  match s.toList.span (· != ':') with
  | (kind, _ :: path) =>
    if kind = "zip".toList then ⟨.file, String.ofList path⟩
    else if kind = "badger".toList then ⟨.generations, String.ofList path⟩
    else ⟨.file, s⟩
  | _ => ⟨.file, s⟩

/-- The text of a place. -/
def text (l : Location) : String := l.backend.name ++ ":" ++ l.path

end Location

/-- A save that is open for reading: what it holds, and the store to close afterwards. -/
structure OpenSave where
  source : Source
  store : Option String

namespace Disk

/-- Opens a save for reading (`openSource`). -/
def openSource (d : Disk) (l : Location) : Disk × Except ArchiveError OpenSave :=
  match l.backend with
  | .file =>
    match d.files.openArchive l.path with
    | .error e => (d, .error e)
    | .ok entries => (d, .ok ⟨entries.source, none⟩)
  | .generations =>
    match d.openStore l.path with
    | (d, .error e) => (d, .error e)
    | (d, .ok ()) =>
      let s := d.store l.path
      match s.newReader with
      | .error e => (d.closeStore l.path, .error e)
      | .ok r => (d, .ok ⟨s.source r, some l.path⟩)

/-- Closes a save after reading. -/
def closeSource (d : Disk) (save : OpenSave) : Disk :=
  match save.store with
  | some path => d.closeStore path
  | none => d

/-- A save that is being written. -/
inductive OpenSink where
  | file (w : ArchiveWriter)
  | generation (path : String) (w : GenerationWriter)

/-- Adds an entry to a save. -/
def OpenSink.write (s : OpenSink) (name : String) (data : ByteArray) :
    OpenSink × Except ArchiveError Unit :=
  match s with
  | .file w =>
    let (w, r) := w.write name data
    (.file w, r)
  | .generation path w =>
    let (w, r) := w.write name data
    (.generation path w, r)

/-- Saves being written as sinks. -/
def OpenSink.sink : Sink OpenSink := ⟨OpenSink.write⟩

/-- Starts a save; the compression counts for archive files only (`openSink`). -/
def openSink (d : Disk) (l : Location) (compression : String) :
    Disk × Except ArchiveError OpenSink :=
  match l.backend with
  | .file =>
    match ArchiveWriter.create d.files l.path compression with
    | (files, .error e) => ({ d with files }, .error e)
    | (files, .ok w) => ({ d with files }, .ok (.file w))
  | .generations =>
    match d.openStore l.path with
    | (d, .error e) => (d, .error e)
    | (d, .ok ()) =>
      match (d.store l.path).newWriter with
      | (s, .error e) => ((d.setStore l.path s).closeStore l.path, .error e)
      | (s, .ok w) => (d.setStore l.path s, .ok (.generation l.path w))

/-- Finishes a save. -/
def finishSink (d : Disk) (s : OpenSink) :
    Disk × Except ArchiveError Unit × List GenerationNotice :=
  match s with
  | .file w =>
    let (_, files, r) := w.close d.files
    ({ d with files }, r, [])
  | .generation path w =>
    let (store, _, r, notices) := (d.store path).finish w
    (d.setStore path store, r, notices)

/-- Gives a save up. -/
def abortSink (d : Disk) (s : OpenSink) : Disk × List GenerationNotice :=
  match s with
  | .file w =>
    let (_, files) := w.abort d.files
    ({ d with files }, [])
  | .generation path w =>
    let (store, _, notices) := (d.store path).abort w
    (d.setStore path store, notices)

/-- Closes the store of a save after writing. -/
def closeSink (d : Disk) (s : OpenSink) : Disk :=
  match s with
  | .file _ => d
  | .generation path _ => d.closeStore path

/-- The entries of a source. -/
def entriesOf (source : Source) : Except ArchiveError Entries := do
  let pairs ← (← source.names).mapM fun name => do return (name, ← source.read name)
  return .ofList pairs

/-- Reads a save as a whole. -/
def readSave (d : Disk) (l : Location) : Disk × Except ArchiveError Entries :=
  match d.openSource l with
  | (d, .error e) => (d, .error e)
  | (d, .ok save) => (d.closeSource save, entriesOf save.source)

end Disk

end BlockWorld.Save
