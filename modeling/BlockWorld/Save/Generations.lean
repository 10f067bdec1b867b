import BlockWorld.Log.Level
import BlockWorld.Save.ArchiveFile
import BlockWorld.Text.Uuid
/-!
A store of generations, kept in a database of keys and bytes. Every save is a generation of its own,
whose entries stand under keys that start with its identifier, and one more key holds the identifier
of the current generation. Finishing a writer puts its entries into the database, then makes its
generation the current one, and last removes the one before it. Readers stay with the generation they
were opened on. The store can be closed and opened again; writers and readers belong to one session
and do not outlive it.
-/
namespace BlockWorld.Save

/-! ## The database -/

namespace Entries

/-- Adds all entries of others, which replace those with the same names. -/
def insertAll (e others : Entries) : Entries := others.pairs.foldl (fun e p => e.insert p.1 p.2) e

/-- Removes all entries whose names start with a text. -/
def dropUnder (e : Entries) (start : String) : Entries :=
  ⟨e.pairs.filter fun p => !start.toList.isPrefixOf p.1.toList⟩

/-- The entries whose names start with a text, which is left out of the names. -/
def under (e : Entries) (start : String) : Entries :=
  ⟨e.pairs.filterMap fun p =>
    (start.toList.isPrefixOf? p.1.toList).map fun rest => (String.ofList rest, p.2)⟩

end Entries

/-- The key that holds the identifier of the current generation. -/
def currentKey : String := "save:current"

/-- What the keys of a generation start with (`generationPrefix`). -/
def generationStart (id : String) : String := "save:" ++ id ++ ":"

/-- A store of saves, of which at most one is current. -/
structure Generations where
  isOpen : Bool
  /-- How often the store has been opened. -/
  session : Nat
  /-- Keys and their bytes. -/
  database : Entries
  /-- How many generations have been started. -/
  started : Nat

/-- A generation that is being written. -/
structure GenerationWriter where
  session : Nat
  /-- The identifier of the generation. -/
  generation : String
  /-- What goes into the database when the generation is finished. -/
  batch : Entries
  finished : Bool

/-- A look at a generation. -/
structure GenerationReader where
  session : Nat
  generation : String
  deriving DecidableEq, Repr

/-- What a store tells the log. -/
inductive GenerationNotice where
  | becameCurrent (generation : String)
  | removed (generation : String)
  | abandoned (generation : String)
  deriving DecidableEq, Repr

/-- The line of the log for a notice. -/
def GenerationNotice.message : GenerationNotice → Log.Message
  | .becameCurrent id => ⟨.debug, "Поколение сохранения " ++ id ++ " стало текущим"⟩
  | .removed id => ⟨.debug, "Поколение " ++ id ++ " удалено"⟩
  | .abandoned id => ⟨.debug, "Сохранение " ++ id ++ " отменено"⟩

namespace GenerationWriter

/-- Adds an entry (`BadgerWriter.WriteEntry`). -/
def write (w : GenerationWriter) (name : String) (data : ByteArray) :
    GenerationWriter × Except ArchiveError Unit :=
  if w.finished then (w, .error .generationClosed)
  else ({ w with batch := w.batch.insert (generationStart w.generation ++ name) data }, .ok ())

/-- The writer as a sink. -/
def sink : Sink GenerationWriter := ⟨write⟩

end GenerationWriter

namespace Generations

/-- A store that has never been opened. -/
def empty : Generations := ⟨false, 0, .empty, 0⟩

instance : Inhabited Generations := ⟨empty⟩

/-- Opens a closed store (`OpenBadger`). -/
def reopen (s : Generations) : Generations := { s with isOpen := true, session := s.session + 1 }

/-- Closes the store (`BadgerArchive.Close`). -/
def close (s : Generations) : Generations := { s with isOpen := false }

/-- Whether a session is still going on. -/
def serves (s : Generations) (session : Nat) : Bool := s.isOpen && s.session == session

/-! ## Writing -/

/-- Starts a generation under an identifier. -/
def start (s : Generations) (id : String) : Generations × Except ArchiveError GenerationWriter :=
  if s.isOpen then
    ({ s with started := s.started + 1 }, .ok ⟨s.session, id, .empty, false⟩)
  else (s, .error .storeClosed)

/-- The identifier that the next generation gets. -/
def nextId (s : Generations) : String := Text.Uuid.ofNat s.started

/-- Starts a generation (`BadgerArchive.NewWriter`). -/
def newWriter (s : Generations) : Generations × Except ArchiveError GenerationWriter :=
  s.start s.nextId

/-- The identifier of the current generation (`BadgerArchive.currentGeneration`). -/
def current (s : Generations) : Except ArchiveError String :=
  match s.database.get? currentKey with
  | none => .error .noSave
  -- Nothing but texts is ever put there.
  | some data => .ok ((String.fromUTF8? data).getD "")

/-- Removes a generation. -/
def drop (s : Generations) (id : String) : Generations :=
  { s with database := s.database.dropUnder (generationStart id) }

/-- Makes a written generation the current one and removes the one before it. -/
def publish (s : Generations) (w : GenerationWriter) : Generations × List GenerationNotice :=
  let flushed := { s with database := s.database.insertAll w.batch }
  let previous := flushed.current.toOption.getD ""
  let next := { flushed with
    database := flushed.database.insert currentKey w.generation.toUTF8 }
  if previous = "" then (next, [.becameCurrent w.generation])
  else (next.drop previous, [.becameCurrent w.generation, .removed previous])

/-- Finishes a generation. A finished one stays as it is. Stands for `BadgerWriter.Close`. -/
def finish (s : Generations) (w : GenerationWriter) :
    Generations × GenerationWriter × Except ArchiveError Unit × List GenerationNotice :=
  if w.finished then (s, w, .ok (), [])
  else
    let done := { w with finished := true }
    if s.serves w.session then
      let (s, notices) := s.publish w
      (s, done, .ok (), notices)
    else if w.batch.pairs.isEmpty then (s, done, .error .lateRead, [])
    else (s, done, .error .lateFlush, [])

/-- Gives a generation up. A finished one stays as it is. Stands for `BadgerWriter.Abort`. -/
def abort (s : Generations) (w : GenerationWriter) :
    Generations × GenerationWriter × List GenerationNotice :=
  if w.finished then (s, w, [])
  else (s.drop w.generation, { w with finished := true }, [.abandoned w.generation])

/-! ## Reading -/

/-- Looks at the current generation (`BadgerArchive.NewReader`). -/
def newReader (s : Generations) : Except ArchiveError GenerationReader :=
  if s.isOpen then
    match s.current with
    | .ok id => .ok ⟨s.session, id⟩
    | .error e => .error e
  else .error .storeClosed

/-- Reads an entry of a generation. -/
def read (s : Generations) (id name : String) : Except ArchiveError ByteArray :=
  match s.database.get? (generationStart id ++ name) with
  | some data => .ok data
  | none => .error (.absentEntry name)

/-- What a reader sees; a generation that has been removed has no entries (`BadgerReader`). -/
def source (s : Generations) (r : GenerationReader) : Source :=
  if s.serves r.session then
    ⟨.ok (s.database.under (generationStart r.generation)).names, s.read r.generation⟩
  else ⟨.error .lateRead, fun _ => .error .lateRead⟩

end Generations

end BlockWorld.Save
