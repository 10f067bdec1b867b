import BlockWorld.Program.Persistence
import BlockWorld.Proofs.Save.ArchiveFile
import BlockWorld.Proofs.Save.Disk
import BlockWorld.Proofs.World.Saving
/-!
Saves that fail. An attempt to save a world may stop at a megachunk that has no encoding, at a write, or
at the disk; it may also succeed. For both kinds of places one invariant says what the place holds
(`Stored`): nothing yet, or all entries of the last attempt that succeeded. An attempt that fails leaves
it, and whatever else was on the disk (`Kept`).

How the proof goes. Saving a world to any sink is the same as saving it to an archive in memory, up to the
first write that fails (`World.saveTo_tracks`). So an attempt at an archive file ends in one of three ways
(`run_file`): no temporary file can be made, the file is taken away again, or it is moved to its place with
all entries in it. An attempt at a store gives its generation up or publishes it (`run_generations`). These
are the cases of one step (`Stored.run`). The run follows by induction on the attempts (`Stored.runAll`),
with the identifiers of those to come kept apart from that of the generation held. Last, what is found at a
place is read off its state (`Stored.findSave_some`, `Stored.findSave_none`).

There is one exception, `Overbuilt`. The path `saves/` leads nowhere as long as `saves` is missing, and to a
folder once that has been made for the temporary file. Then a load is refused where it found no save before
(`load_saves_changes`).
-/
namespace BlockWorld.Save.Disk

namespace OpenSink

/-! ## Writes that fail -/

/-- A save being written, with other entries. -/
def withEntries (s : OpenSink) (entries : Entries) : OpenSink :=
  match s with
  | .file w => .file { w with entries }
  | .generation path w => .generation path { w with batch := entries }

/-- When a write fails: the error, and the entries that it leaves. -/
abbrev WriteFault := OpenSink → String → ByteArray → Option (ArchiveError × Entries)

/-- Saves being written as sinks, with some writes that fail. -/
def faulty (fault : WriteFault) : Sink OpenSink where
  write s name data :=
    match fault s name data with
    | some (e, entries) => (s.withEntries entries, .error e)
    | none => s.write name data

/-- Without faults it is the sink of the program. -/
theorem faulty_none : faulty (fun _ _ _ => none) = OpenSink.sink := rfl

theorem tracks_file (fault : WriteFault) {w : ArchiveWriter} (hopen : w.finished = false) :
    (faulty fault).Tracks (fun e s => s = .file { w with entries := e })
      (fun s => ∃ e, s = .file { w with entries := e }) where
  torn_of_holds := by
    rintro e s rfl
    exact ⟨e, rfl⟩
  write := by
    rintro e s name data rfl
    rw [faulty]
    dsimp only
    split
    · rename_i x entries _
      exact .inr ⟨⟨x, rfl⟩, entries, rfl⟩
    · rw [OpenSink.write, ArchiveWriter.write]
      dsimp only
      rw [hopen, if_neg Bool.false_ne_true]
      split
      · -- The name of a folder takes no bytes, and then it is an entry like others.
        by_cases hsize : data.size = 0
        · rw [if_pos hsize, ByteArray.size_eq_zero_iff.mp hsize]
          exact .inl ⟨rfl, rfl⟩
        · rw [if_neg hsize]
          exact .inr ⟨⟨_, rfl⟩, _, rfl⟩
      · exact .inl ⟨rfl, rfl⟩

theorem tracks_generation (fault : WriteFault) (path : String) {w : GenerationWriter}
    (hopen : w.finished = false) :
    (faulty fault).Tracks
      (fun e s => ∃ batch, s = .generation path { w with batch }
        ∧ Batch batch w.generation e.pairs ∧ e.Sorted)
      (fun s => ∃ batch, s = .generation path { w with batch }) where
  torn_of_holds := by
    rintro e s ⟨batch, rfl, -⟩
    exact ⟨batch, rfl⟩
  write := by
    rintro e s name data ⟨batch, rfl, hbatch, he⟩
    rw [faulty]
    dsimp only
    split
    · rename_i x entries _
      exact .inr ⟨⟨x, rfl⟩, entries, rfl⟩
    · rw [OpenSink.write, GenerationWriter.write]
      dsimp only
      rw [hopen, if_neg Bool.false_ne_true]
      exact .inl ⟨rfl, _, rfl, hbatch.insert_entries name data, he.insert name data⟩

end OpenSink

/-! ## Ends of an archive file -/

section Files

variable {d : Disk} {base : Files} {w : ArchiveWriter}

theorem abortSink_file (h : w.Begun base d.files) (hopen : w.finished = false) :
    (d.abortSink (.file w)).1 = { d with files := base } := by
  change ({ d with files := (w.abort d.files).2 } : Disk) = _
  rw [ArchiveWriter.abort_of_begun h hopen]

/-- The archive reaches its place, or nothing of it is left. -/
theorem finishSink_file (h : w.Begun base d.files) (hopen : w.finished = false) :
    ((d.finishSink (.file w)).1 = { d with files := base }
        ∧ (d.finishSink (.file w)).2.1.isOk = false)
      ∨ ∃ fs, (d.finishSink (.file w)).1 = { d with files := fs }
        ∧ (d.finishSink (.file w)).2.1.isOk = true
        ∧ fs.stat w.path = .ok (.archive w.entries) ∧ base.KeepsFolders fs := by
  have hfinish : d.finishSink (.file w)
      = ({ d with files := (w.close d.files).2.1 }, (w.close d.files).2.2, []) := rfl
  rw [hfinish]
  obtain ⟨e, hclose⟩ | ⟨fs, hclose, hstat, hkeeps⟩ := ArchiveWriter.close_of_begun h hopen
  · rw [hclose]
    exact .inl ⟨rfl, rfl⟩
  · rw [hclose]
    exact .inr ⟨fs, rfl, rfl, hstat, hkeeps⟩

end Files

end BlockWorld.Save.Disk

namespace BlockWorld.Program.Persistence

open Save Disk

variable {l : Location} {d d' : Disk} {w : World} {sink : Sink OpenSink} {savedAt : Data.Timestamp}
  {id : String}

/-! ## How a save ends -/

theorem save_of_error {e : ArchiveError} (h : openSink l w.compression id d = (d', .error e)) :
    save sink l id savedAt w d = ⟨d', w, .error (.archive e), []⟩ := by
  rw [save, h]

theorem save_of_failed {out : OpenSink} {e : World.SaveError}
    (h : openSink l w.compression id d = (d', .ok out))
    (hsave : (w.saveTo savedAt sink out).2.1 = .error e) :
    (save sink l id savedAt w d).disk = (d'.abortSink (w.saveTo savedAt sink out).1).1
      ∧ (save sink l id savedAt w d).result.isOk = false := by
  rw [save, h]
  dsimp only
  generalize w.saveTo savedAt sink out = saved at hsave
  obtain ⟨out', result, w'⟩ := saved
  dsimp only at hsave
  subst hsave
  exact ⟨rfl, rfl⟩

theorem save_of_written {out : OpenSink} (h : openSink l w.compression id d = (d', .ok out))
    (hsave : (w.saveTo savedAt sink out).2.1 = .ok ()) :
    (save sink l id savedAt w d).disk = (d'.finishSink (w.saveTo savedAt sink out).1).1
      ∧ (save sink l id savedAt w d).result.isOk
        = (d'.finishSink (w.saveTo savedAt sink out).1).2.1.isOk := by
  rw [save, h]
  dsimp only
  generalize w.saveTo savedAt sink out = saved at hsave
  obtain ⟨out', result, w'⟩ := saved
  dsimp only at hsave
  subst hsave
  refine ⟨rfl, ?_⟩
  dsimp only
  generalize (d'.finishSink out').2.1 = finished
  cases finished <;> rfl

/-! ## Attempts -/

/-- An attempt to save a world; the identifier counts for generations. -/
structure Attempt where
  world : World
  savedAt : Data.Timestamp
  id : String
  fault : OpenSink.WriteFault

namespace Attempt

/-- What the attempt does at a place. -/
def run (a : Attempt) (l : Location) (d : Disk) : Saved :=
  save (OpenSink.faulty a.fault) l a.id a.savedAt a.world d

/-- The attempt into an archive in memory, where no write fails. -/
def inMemory (a : Attempt) : MemoryArchive × Except World.SaveError Unit × World :=
  a.world.saveTo a.savedAt MemoryArchive.sink .empty

/-- The entries of the attempt. -/
def entries (a : Attempt) : Entries := a.inMemory.1.entries

end Attempt

/-- The disk after some attempts. -/
def diskAfter (l : Location) (d : Disk) (attempts : List Attempt) : Disk :=
  attempts.foldl (fun d a => (a.run l d).disk) d

/-- The last of some attempts that succeeds. -/
def lastSaved (l : Location) : Disk → List Attempt → Option Attempt
  | _, [] => none
  | d, a :: rest =>
    (lastSaved l (a.run l d).disk rest).or (if (a.run l d).result.isOk then some a else none)

/-! ## Archive files -/

section Files

variable {path : String} {start fs fs' : Files} {last : Option Entries}

/-- Files after attempts that failed. -/
def Untouched (path : String) (fs fs' : Files) : Prop :=
  ∃ n, fs' = fs.numbered n ∨ fs' = (fs.mkdirAll (Text.folderOf path)).1.numbered n

namespace Untouched

theorem refl (path : String) (fs : Files) : Untouched path fs fs :=
  ⟨fs.serial, .inl (Files.numbered_serial fs).symm⟩

theorem trans {fs₁ fs₂ fs₃ : Files} (h : Untouched path fs₁ fs₂) (h' : Untouched path fs₂ fs₃) :
    Untouched path fs₁ fs₃ := by
  obtain ⟨n, hn⟩ := h'
  obtain ⟨m, rfl | rfl⟩ := h
  · rw [Files.mkdirAll_numbered, Files.numbered_numbered, Files.numbered_numbered] at hn
    exact ⟨n, hn⟩
  · rw [Files.mkdirAll_numbered, Files.mkdirAll_mkdirAll, Files.numbered_numbered, or_self] at hn
    exact ⟨n, .inr hn⟩

theorem grown (h : Untouched path fs fs') :
    fs.Grown fs' ∧ fs'.Grown (fs.mkdirAll (Text.folderOf path)).1 := by
  obtain ⟨n, rfl | rfl⟩ := h
  · exact ⟨.numbered fs n, .trans (.of_numbered fs n) (.mkdirAll ..)⟩
  · exact ⟨.trans (.mkdirAll ..) (.numbered ..), .of_numbered ..⟩

end Untouched

/-- What the archive file at a path holds, if there is one: nothing yet, the tree being as it was at the
start but for folders, or some entries. -/
inductive FileState (path : String) (start fs : Files) : Option Entries → Prop where
  | vacant (h : Untouched path start fs) : FileState path start fs none
  | saved {e : Entries} (hstat : fs.stat path = .ok (.archive e))
      (hfolders : fs.HasFolders (Files.pathTexts (Text.folderOf path))) :
      FileState path start fs (some e)

/-- A failed attempt leaves the archive file. -/
theorem FileState.untouched (h : FileState path start fs last) (hfs : Untouched path fs fs') :
    FileState path start fs' last := by
  cases h with
  | vacant h => exact .vacant (h.trans hfs)
  | saved hstat hfolders =>
    obtain ⟨n, rfl | rfl⟩ := hfs
    · exact .saved ((Files.stat_numbered ..).trans hstat) (hfolders.kept (.numbered fs n))
    · rw [Files.mkdirAll, hfolders.makeFolders]
      exact .saved ((Files.stat_numbered ..).trans hstat) (hfolders.kept (.numbered fs n))

theorem openSink_file_error (hl : l.backend = .file) {compression : String} {e : ArchiveError}
    (h : ArchiveWriter.create d.files l.path compression = (fs, .error e)) :
    openSink l compression id d = ({ d with files := fs }, .error e) := by
  rw [openSink, hl, Disk.openSink, hl]
  simp only [h]

theorem openSink_file_ok (hl : l.backend = .file) {compression : String} {out : ArchiveWriter}
    (h : ArchiveWriter.create d.files l.path compression = (fs, .ok out)) :
    openSink l compression id d = ({ d with files := fs }, .ok (.file out)) := by
  rw [openSink, hl, Disk.openSink, hl]
  simp only [h]

/-- An attempt for which no file can be made. -/
theorem run_file_error (hl : l.backend = .file) (a : Attempt) {e : ArchiveError}
    (hcreate : ArchiveWriter.create d.files l.path a.world.compression = (fs, .error e)) :
    (a.run l d).disk.stores = d.stores ∧ (a.run l d).result.isOk = false
      ∧ Untouched l.path d.files (a.run l d).disk.files := by
  rw [Attempt.run, save_of_error (openSink_file_error hl hcreate)]
  refine ⟨rfl, rfl, ?_⟩
  obtain h | h := ArchiveWriter.create_error hcreate
  · exact ⟨fs.serial, .inl (by rw [h, Files.numbered_serial])⟩
  · exact ⟨fs.serial, .inr (by rw [h, Files.numbered_serial])⟩

theorem run_file_begun (hl : l.backend = .file) (a : Attempt) {out : ArchiveWriter}
    (hcreate : ArchiveWriter.create d.files l.path a.world.compression = (fs, .ok out)) :
    (a.run l d).disk.stores = d.stores
      ∧ (((a.run l d).result.isOk = false ∧ Untouched l.path d.files (a.run l d).disk.files)
        ∨ ((a.run l d).result.isOk = true ∧ a.inMemory.2.1 = .ok ()
          ∧ FileState l.path start (a.run l d).disk.files (some a.entries))) := by
  obtain ⟨hpath, hempty, hopen, hmade, n, hbegun⟩ := ArchiveWriter.create_ok hcreate
  have hout : openSink l a.world.compression a.id d = _ := openSink_file_ok hl hcreate
  have hstart : OpenSink.file out = .file { out with entries := MemoryArchive.empty.entries } := by
    rw [show MemoryArchive.empty.entries = out.entries from hempty.symm]
  rw [Attempt.run]
  obtain ⟨hok, hmem, hwritten⟩ | ⟨⟨e, herror⟩, entries, htorn⟩ :=
    World.saveTo_tracks a.world a.savedAt (OpenSink.tracks_file a.fault hopen)
      MemoryArchive.faultless_empty hstart
  · obtain ⟨out', hout', htemp, hopen', hpath', hentries⟩ :
        ∃ out' : ArchiveWriter, (a.world.saveTo a.savedAt (OpenSink.faulty a.fault) (.file out)).1
            = .file out'
          ∧ out'.temp = out.temp ∧ out'.finished = false ∧ out'.path = l.path
          ∧ out'.entries = a.entries :=
      ⟨_, hwritten, rfl, hopen, hpath, rfl⟩
    obtain ⟨hdisk, hresult⟩ := save_of_written hout hok
    rw [hout'] at hdisk hresult
    obtain ⟨hfinish, hfailed⟩ | ⟨fs', hfinish, hdone, hstat, hkeeps⟩ :=
      finishSink_file (d := { d with files := fs }) (hbegun.of_temp htemp) hopen'
    · rw [hdisk, hresult, hfinish, hfailed]
      exact ⟨rfl, .inl ⟨rfl, n, .inr rfl⟩⟩
    · rw [hdisk, hresult, hfinish, hdone]
      rw [hpath', hentries] at hstat
      refine ⟨rfl, .inr ⟨rfl, hmem, .saved hstat ?_⟩⟩
      exact (Files.hasFolders_makeFolders hmade).kept (.trans (.numbered _ n) hkeeps)
  · obtain ⟨hdisk, hresult⟩ := save_of_failed hout herror
    rw [htorn, abortSink_file (d := { d with files := fs }) (w := { out with entries })
      (hbegun.of_temp rfl) hopen] at hdisk
    rw [hdisk, hresult]
    exact ⟨rfl, .inl ⟨rfl, n, .inr rfl⟩⟩

/-- An attempt at an archive file fails without a trace, or puts all its entries there. -/
theorem run_file (hl : l.backend = .file) (a : Attempt) (start : Files) (d : Disk) :
    (a.run l d).disk.stores = d.stores
      ∧ (((a.run l d).result.isOk = false ∧ Untouched l.path d.files (a.run l d).disk.files)
        ∨ ((a.run l d).result.isOk = true ∧ a.inMemory.2.1 = .ok ()
          ∧ FileState l.path start (a.run l d).disk.files (some a.entries))) := by
  cases hcreate : ArchiveWriter.create d.files l.path a.world.compression with
  | mk fs result =>
    cases result with
    | error e =>
      obtain ⟨hstores, hfailed⟩ := run_file_error hl a hcreate
      exact ⟨hstores, .inl hfailed⟩
    | ok out => exact run_file_begun hl a hcreate

end Files

/-! ## Stores of generations -/

section Generations

variable {s s' : Generations} {ids : List String} {last : Option Entries}

/-- What a store holds: nothing, or one generation, whose identifier is not among some others. -/
inductive StoreState (s : Generations) (ids : List String) : Option Entries → Prop where
  | vacant (h : s.database = .empty) : StoreState s ids none
  | saved {id : String} {e : Entries} (hplain : Text.Uuid.IsPlain id) (hid : id ∉ ids)
      (holds : s.Holds id e.pairs) (he : e.Sorted) : StoreState s ids (some e)

namespace StoreState

theorem of_database (h : StoreState s ids last) (hs : s'.database = s.database) :
    StoreState s' ids last := by
  cases h with
  | vacant h => exact .vacant (hs.trans h)
  | saved hplain hid holds he => exact .saved hplain hid (holds.of_database hs) he

theorem tail (h : StoreState s (id :: ids) last) : StoreState s ids last := by
  cases h with
  | vacant h => exact .vacant h
  | saved hplain hid holds he =>
    exact .saved hplain (fun hmem => hid (List.mem_cons_of_mem _ hmem)) holds he

/-- Nothing stands under the keys of a generation that is not the one held. -/
theorem drop (h : StoreState s (id :: ids) last) (hplain : Text.Uuid.IsPlain id) :
    s.drop id = s := by
  cases h with
  | vacant h =>
    refine Generations.drop_eq_self (h ▸ Entries.sorted_empty) fun key _ => ?_
    rw [h]
    rfl
  | saved hheld hid holds he =>
    refine Generations.drop_eq_self holds.sorted fun key hkey => ?_
    have hne : id ≠ _ := fun heq => hid (heq ▸ List.mem_cons_self)
    exact holds.get?_of_ne hheld.no_colon hplain.no_colon hne hkey

theorem publish {w : GenerationWriter} {e : Entries} (h : StoreState s (w.generation :: ids) last)
    (hplain : Text.Uuid.IsPlain w.generation) (hnew : w.generation ∉ ids)
    (hbatch : Batch w.batch w.generation e.pairs) (he : e.Sorted) :
    StoreState (s.publish w).1 ids (some e) := by
  cases h with
  | vacant h => exact .saved hplain hnew (Generations.holds_publish_of_empty h hbatch) he
  | saved hheld hid holds _ =>
    have hne : w.generation ≠ _ := fun heq => hid (heq ▸ List.mem_cons_self)
    exact .saved hplain hnew (holds.publish hheld hbatch hplain hne) he

end StoreState

/-- A store in which one more generation has been started. -/
def begun (s : Generations) : Generations := { s with started := s.started + 1 }

theorem openSink_generations (hl : l.backend = .generations)
    (hopen : (d.store l.path).isOpen = true) (compression : String) :
    openSink l compression id d
      = (d.setStore l.path (begun (d.store l.path)),
        .ok (.generation l.path ⟨(d.store l.path).session, id, .empty, false⟩)) := by
  rw [openSink, hl]
  dsimp only
  rw [Generations.start, if_pos hopen]
  rfl

theorem abortSink_generation (d : Disk) (path : String) {out : GenerationWriter}
    (hopen : out.finished = false) :
    (d.abortSink (.generation path out)).1
      = d.setStore path ((d.store path).drop out.generation) := by
  rw [abortSink, Generations.abort, hopen]
  rfl

theorem finishSink_generation (d : Disk) (path : String) (out : GenerationWriter)
    (hopen : out.finished = false) (hserves : (d.store path).serves out.session = true) :
    (d.finishSink (.generation path out)).1 = d.setStore path ((d.store path).publish out).1
      ∧ (d.finishSink (.generation path out)).2.1.isOk = true := by
  rw [finishSink, Generations.finish, hopen, if_neg Bool.false_ne_true]
  dsimp only
  rw [if_pos hserves]
  exact ⟨rfl, rfl⟩

/-- How an attempt at a store ends: its generation is given up, or published with all its entries. -/
theorem run_generations_ends (hl : l.backend = .generations) (a : Attempt)
    (hopen : (d.store l.path).isOpen = true) :
    let started := d.setStore l.path (begun (d.store l.path))
    ((a.run l d).result.isOk = false
        ∧ (a.run l d).disk = started.setStore l.path ((begun (d.store l.path)).drop a.id))
      ∨ ∃ batch, (a.run l d).result.isOk = true ∧ a.inMemory.2.1 = .ok ()
        ∧ Batch batch a.id a.entries.pairs ∧ a.entries.Sorted
        ∧ (a.run l d).disk = started.setStore l.path
          ((begun (d.store l.path)).publish ⟨(d.store l.path).session, a.id, batch, false⟩).1 := by
  have hout : openSink l a.world.compression a.id d = _ := openSink_generations hl hopen _
  have hstart : ∃ batch, OpenSink.generation l.path ⟨(d.store l.path).session, a.id, .empty, false⟩
      = .generation l.path ⟨(d.store l.path).session, a.id, batch, false⟩
      ∧ Batch batch a.id MemoryArchive.empty.entries.pairs ∧ MemoryArchive.empty.entries.Sorted :=
    ⟨_, rfl, batch_empty a.id, Entries.sorted_empty⟩
  have htracks := OpenSink.tracks_generation a.fault l.path
    (w := ⟨(d.store l.path).session, a.id, .empty, false⟩) rfl
  rw [Attempt.run]
  obtain ⟨hok, hmem, batch, hwritten, hbatch, hsorted⟩ | ⟨⟨e, herror⟩, batch, htorn⟩ :=
    World.saveTo_tracks a.world a.savedAt htracks MemoryArchive.faultless_empty hstart
  · obtain ⟨hdisk, hresult⟩ := save_of_written hout hok
    have hserves : (begun (d.store l.path)).serves (d.store l.path).session = true := by
      simp [Generations.serves, begun, hopen]
    rw [hwritten] at hdisk hresult
    obtain ⟨hfinish, hfinished⟩ := finishSink_generation
      (d.setStore l.path (begun (d.store l.path))) l.path
      ⟨(d.store l.path).session, a.id, batch, false⟩ rfl (by rwa [store_setStore])
    rw [hfinish, store_setStore] at hdisk
    rw [hfinished] at hresult
    exact .inr ⟨batch, hresult, hmem, hbatch, hsorted, hdisk⟩
  · obtain ⟨hdisk, hresult⟩ := save_of_failed hout herror
    rw [htorn, abortSink_generation _ _ rfl, store_setStore] at hdisk
    exact .inl ⟨hresult, hdisk⟩

/-- An attempt at a store fails without a trace, or makes its entries those of the store. -/
theorem run_generations (hl : l.backend = .generations) (a : Attempt)
    (hopen : (d.store l.path).isOpen = true)
    (hstate : StoreState (d.store l.path) (a.id :: ids) last) (hplain : Text.Uuid.IsPlain a.id)
    (hnew : a.id ∉ ids) :
    ((a.run l d).disk.store l.path).isOpen = true
      ∧ (((a.run l d).result.isOk = false ∧ Kept d (a.run l d).disk
            ∧ StoreState ((a.run l d).disk.store l.path) ids last)
        ∨ ((a.run l d).result.isOk = true ∧ a.inMemory.2.1 = .ok ()
          ∧ StoreState ((a.run l d).disk.store l.path) ids (some a.entries))) := by
  have hbegun : StoreState (begun (d.store l.path)) (a.id :: ids) last := hstate.of_database rfl
  obtain ⟨hresult, hdisk⟩ | ⟨batch, hresult, hmem, hbatch, hsorted, hdisk⟩ :=
    run_generations_ends hl a hopen
  · rw [hbegun.drop hplain] at hdisk
    rw [hdisk, hresult, store_setStore]
    have hbegin : Kept d (d.setStore l.path (begun (d.store l.path))) := .setStore d rfl rfl
    refine ⟨hopen, .inl ⟨rfl, hbegin.trans (.setStore _ ?_ ?_), hbegun.tail⟩⟩
    · rw [store_setStore]
    · rw [store_setStore]
  · rw [hdisk, hresult, store_setStore]
    refine ⟨(Generations.publish_isOpen ..).trans hopen, .inr ⟨rfl, hmem, ?_⟩⟩
    exact hbegun.publish hplain hnew hbatch hsorted

end Generations

/-! ## Runs of attempts -/

variable {start : Files} {ids : List String} {last : Option Entries}

/-- What a place of saves holds: the entries of the last save, if there is one. -/
inductive Stored (l : Location) (start : Files) (d : Disk) (ids : List String)
    (last : Option Entries) : Prop where
  | file (hl : l.backend = .file) (h : FileState l.path start d.files last)
  | generations (hl : l.backend = .generations) (hopen : (d.store l.path).isOpen = true)
      (h : StoreState (d.store l.path) ids last)

/-- One attempt. -/
theorem Stored.run {a : Attempt} (h : Stored l start d (a.id :: ids) last)
    (hplain : Text.Uuid.IsPlain a.id) (hnew : a.id ∉ ids) :
    ((a.run l d).result.isOk = false ∧ Kept d (a.run l d).disk
        ∧ Stored l start (a.run l d).disk ids last)
      ∨ ((a.run l d).result.isOk = true ∧ a.inMemory.2.1 = .ok ()
        ∧ Stored l start (a.run l d).disk ids (some a.entries)) := by
  cases h with
  | file hl h =>
    obtain ⟨hstores, ⟨hresult, hfiles⟩ | ⟨hresult, hmem, hstate⟩⟩ := run_file hl a start d
    · refine .inl ⟨hresult, ⟨hfiles.grown.1, fun key => ?_, fun key => ?_⟩,
        .file hl (h.untouched hfiles)⟩
      · rw [storeAt, storeAt, hstores]
      · rw [storeAt, storeAt, hstores]
    · exact .inr ⟨hresult, hmem, .file hl hstate⟩
  | generations hl hopen h =>
    obtain ⟨hstill, ⟨hresult, hkept, hstate⟩ | ⟨hresult, hmem, hstate⟩⟩ :=
      run_generations hl a hopen h hplain hnew
    · exact .inl ⟨hresult, hkept, .generations hl hstill hstate⟩
    · exact .inr ⟨hresult, hmem, .generations hl hstill hstate⟩

/-- Some attempts, with others to come, whose identifiers are kept apart from that of the save held. -/
theorem Stored.runAll {attempts : List Attempt}
    (h : Stored l start d (attempts.map Attempt.id ++ ids) last)
    (hplain : ∀ a ∈ attempts, Text.Uuid.IsPlain a.id)
    (hids : (attempts.map Attempt.id ++ ids).Nodup) :
    Stored l start (diskAfter l d attempts) ids
        (((lastSaved l d attempts).map Attempt.entries).or last)
      ∧ ∀ a, lastSaved l d attempts = some a → a.inMemory.2.1 = .ok () := by
  induction attempts generalizing d last with
  | nil => exact ⟨h, by simp [lastSaved]⟩
  | cons a rest ih =>
    obtain ⟨hnew, hrest⟩ := List.nodup_cons.mp hids
    have hlater : ∀ b ∈ rest, Text.Uuid.IsPlain b.id :=
      fun b hb => hplain b (List.mem_cons_of_mem a hb)
    rw [lastSaved]
    obtain ⟨hresult, -, hstored⟩ | ⟨hresult, hmem, hstored⟩ :=
      Stored.run h (hplain a List.mem_cons_self) hnew
    · obtain ⟨hafter, hcomplete⟩ := ih hstored hlater hrest
      rw [hresult, if_neg Bool.false_ne_true, Option.or_none]
      exact ⟨hafter, hcomplete⟩
    · obtain ⟨hafter, hcomplete⟩ := ih hstored hlater hrest
      rw [hresult, if_pos rfl]
      cases hlast : lastSaved l (a.run l d).disk rest with
      | none =>
        rw [hlast] at hafter
        refine ⟨hafter, fun b hb => ?_⟩
        cases hb
        exact hmem
      | some b =>
        rw [hlast] at hafter
        exact ⟨hafter, fun c hc => hcomplete c (hlast.trans hc)⟩

theorem findSave_file (hl : l.backend = .file) (hd : d'.files.stat l.path = d.files.stat l.path) :
    findSave l d' = findSave l d := by
  rw [findSave, findSave, hl]
  dsimp only
  rw [Files.openArchive, Files.openArchive, hd]

/-- The entries of the last save are found. -/
theorem Stored.findSave_some {e : Entries} (h : Stored l start d ids (some e)) :
    findSave l d = .ok (some e.source) := by
  cases h with
  | file hl h =>
    cases h with
    | saved hstat _ =>
      rw [findSave, hl]
      dsimp only
      rw [Files.openArchive, hstat]
  | generations hl hopen h =>
    cases h with
    | saved _ _ holds he =>
      rw [findSave, hl]
      dsimp only
      rw [Generations.newReader, if_pos hopen, holds.current]
      dsimp only
      rw [holds.source_eq he hopen]

theorem load_of_error {e : ArchiveError} (h : findSave l d = .error e) (w : World) :
    load l w d = (.error (.unopened e), w) := by
  rw [load, h]

theorem load_of_none (h : findSave l d = .ok none) (w : World) : load l w d = (.ok false, w) := by
  rw [load, h]

theorem load_of_some {source : Source} (h : findSave l d = .ok (some source)) (w : World) :
    load l w d = (((w.loadFrom source).1.mapError .refused).map fun _ => true,
      (w.loadFrom source).2) := by
  rw [load, h]
  dsimp only
  generalize w.loadFrom source = loaded
  obtain ⟨result, w'⟩ := loaded
  cases result <;> rfl

/-- A place of saves at which nothing has been saved: no file, or an open store without keys. -/
inductive Vacant (l : Location) (d : Disk) : Prop where
  | file (hl : l.backend = .file) (hnow : d.files.stat l.path = .error .noSuchFile)
  | generations (hl : l.backend = .generations) (hopen : (d.store l.path).isOpen = true)
      (hempty : (d.store l.path).database = .empty)

theorem Vacant.stored (h : Vacant l d) (ids : List String) : Stored l d.files d ids none := by
  cases h with
  | file hl _ => exact .file hl (.vacant (.refl l.path d.files))
  | generations hl hopen hempty => exact .generations hl hopen (.vacant hempty)

/-- The disk with the folders that an archive file needs, as far as they can be made. -/
def withFolders (l : Location) (d : Disk) : Disk :=
  { d with files := (d.files.mkdirAll (Text.folderOf l.path)).1 }

theorem files_withFolders (l : Location) (d : Disk) :
    (withFolders l d).files = (d.files.mkdirAll (Text.folderOf l.path)).1 := by
  rw [withFolders]

theorem grown_withFolders (l : Location) (d : Disk) : d.files.Grown (withFolders l d).files := by
  rw [files_withFolders]
  exact .mkdirAll ..

/-- The path of an archive file appears when the folders for its temporary file are made, as `saves/` does.
On a later disk it leads where it does with these folders and nothing else that is new. -/
structure Overbuilt (l : Location) (d d' : Disk) : Prop where
  backend : l.backend = .file
  appears : d.files.Appears (withFolders l d).files l.path
  stat_eq : d'.files.stat l.path = (withFolders l d).files.stat l.path

/-- Such a path is refused, and not taken for one without a save. -/
theorem Overbuilt.refused (h : Overbuilt l d d') (hroot : d.files.Rooted)
    (hup : ".." ∉ Files.namesOf l.path) : ∃ e, findSave l d' = .error e := by
  obtain ⟨e, hopen, hreasons⟩ := h.appears.openArchive (grown_withFolders l d) hroot hup
  refine ⟨e, ?_⟩
  rw [findSave_file h.backend h.stat_eq, findSave, h.backend]
  dsimp only
  rw [hopen]
  dsimp only
  rw [hreasons]
  rfl

/-- Without a save none is found, unless the path has appeared. -/
theorem Stored.findSave_none {d₀ : Disk} (hd : Vacant l d₀) (h : Stored l d₀.files d ids none) :
    findSave l d = .ok none ∨ Overbuilt l d₀ d := by
  cases h with
  | file hl h =>
    cases h with
    | vacant h =>
      obtain ⟨hgrown, hbelow⟩ := h.grown
      rw [← files_withFolders] at hbelow
      obtain hstat | ⟨happears, hstat⟩ := hgrown.stat_between hbelow l.path
      · cases hd with
        | file _ hnow =>
          rw [findSave, hl]
          dsimp only
          rw [Files.openArchive, hstat, hnow]
          exact .inl rfl
        | generations hl' => rw [hl] at hl'; cases hl'
      · exact .inr ⟨hl, happears, hstat⟩
  | generations hl hopen h =>
    cases h with
    | vacant h =>
      rw [findSave, hl]
      dsimp only
      rw [Generations.newReader, if_pos hopen, Generations.current, h]
      exact .inl rfl

/-- If nothing but folders is added then the place is read as before, unless its path appears. -/
theorem Stored.findSave_eq {d₀ : Disk} {ids' : List String} (hd : Vacant l d₀)
    (h : Stored l d₀.files d ids last) (h' : Stored l d₀.files d' ids' last) (hkept : Kept d d') :
    findSave l d' = findSave l d ∨ last = none ∧ Overbuilt l d₀ d' := by
  cases last with
  | some e => exact .inl (h'.findSave_some.trans h.findSave_some.symm)
  | none =>
    obtain hnone' | hbuilt' := h'.findSave_none hd
    · obtain hnone | hbuilt := h.findSave_none hd
      · exact .inl (hnone'.trans hnone.symm)
      · have hstat : d.files.stat l.path ≠ .error .noSuchFile := by
          rw [hbuilt.stat_eq]
          exact hbuilt.appears.after
        exact .inl (findSave_file hbuilt.backend (hkept.files.stat_eq hstat))
    · exact .inr ⟨rfl, hbuilt'⟩

/-- After any attempts at a place where nothing was saved, the save that is found has all entries of the
last attempt that succeeded, and no others; if none did there is no save. An attempt that fails adds
nothing but folders to the disk, and leaves the save that was found before.

The exception is an archive file whose path appears with the folders made for it, as `saves/` does. As long
as nothing is saved there, the path may be read as that of the new folder, and is then refused. -/
theorem attempts_keep_last_save {l : Location} {d : Disk} (hd : Vacant l d)
    (attempts : List Attempt) (hplain : ∀ a ∈ attempts, Text.Uuid.IsPlain a.id)
    (hids : (attempts.map Attempt.id).Nodup) :
    (∀ a, lastSaved l d attempts = some a → a.inMemory.2.1 = .ok ()
        ∧ findSave l (diskAfter l d attempts) = .ok (some a.entries.source)
        ∧ ∀ w, load l w (diskAfter l d attempts)
          = (((w.loadFrom a.entries.source).1.mapError .refused).map fun _ => true,
            (w.loadFrom a.entries.source).2))
      ∧ (lastSaved l d attempts = none →
        findSave l (diskAfter l d attempts) = .ok none
            ∧ (∀ w, load l w (diskAfter l d attempts) = (.ok false, w))
          ∨ Overbuilt l d (diskAfter l d attempts)
            ∧ (d.files.Rooted → ".." ∉ Files.namesOf l.path →
              ∃ e, ∀ w, load l w (diskAfter l d attempts) = (.error (.unopened e), w)))
      ∧ ∀ before a after, attempts = before ++ a :: after →
        (a.run l (diskAfter l d before)).result.isOk = false →
        Kept (diskAfter l d before) (a.run l (diskAfter l d before)).disk
          ∧ (findSave l (a.run l (diskAfter l d before)).disk = findSave l (diskAfter l d before)
            ∨ lastSaved l d before = none ∧ Overbuilt l d (a.run l (diskAfter l d before)).disk) := by
  obtain ⟨hstored, hcomplete⟩ :=
    Stored.runAll (hd.stored (attempts.map Attempt.id ++ [])) hplain (by rwa [List.append_nil])
  rw [Option.or_none] at hstored
  refine ⟨fun a ha => ?_, fun hnone => ?_, ?_⟩
  · rw [ha] at hstored
    exact ⟨hcomplete a ha, hstored.findSave_some, load_of_some hstored.findSave_some⟩
  · rw [hnone] at hstored
    obtain hfind | hbuilt := hstored.findSave_none hd
    · exact .inl ⟨hfind, load_of_none hfind⟩
    · refine .inr ⟨hbuilt, fun hroot hup => ?_⟩
      obtain ⟨e, he⟩ := hbuilt.refused hroot hup
      exact ⟨e, load_of_error he⟩
  · rintro before a after rfl hfailed
    have hids' : (before.map Attempt.id ++ (a :: after).map Attempt.id).Nodup := by
      rwa [← List.map_append]
    obtain ⟨hbefore, -⟩ := Stored.runAll (hd.stored _)
      (fun b hb => hplain b (List.mem_append_left _ hb)) hids'
    have hnew : a.id ∉ after.map Attempt.id :=
      (List.nodup_cons.mp (List.nodup_append.mp hids').2.1).1
    have ha : Text.Uuid.IsPlain a.id := hplain a (by simp)
    obtain ⟨-, hkept, hstill⟩ | ⟨hok, -⟩ := Stored.run hbefore ha hnew
    · refine ⟨hkept, ?_⟩
      obtain hsame | ⟨hnone, hbuilt⟩ := hbefore.findSave_eq hd hstill hkept
      · exact .inl hsame
      · rw [Option.or_none, Option.map_eq_none_iff] at hnone
        exact .inr ⟨hnone, hbuilt⟩
    · rw [hok] at hfailed
      cases hfailed

/-- An attempt to save a world without megachunks, whose manifest may fail to be written. -/
def bareAttempt (number : Nat) (fails : Bool) : Attempt :=
  ⟨.new 0 "7f3c9a52-0000-4b1e-9d06-000000000001" .zero "", .zero, Text.Uuid.ofNat number,
    fun _ _ _ => if fails then some (.injected, .empty) else none⟩

/-- Four attempts, of which the second and the third succeed. -/
def fourAttempts : List Attempt :=
  [bareAttempt 0 true, bareAttempt 1 false, bareAttempt 2 false, bareAttempt 3 true]

theorem plain_fourAttempts : (∀ a ∈ fourAttempts, Text.Uuid.IsPlain a.id)
    ∧ (fourAttempts.map Attempt.id).Nodup := by
  decide +kernel

theorem vacant_file : Vacant ⟨.file, "saves/world.zip"⟩ .empty :=
  .file rfl (by rfl)

theorem vacant_generations : Vacant ⟨.generations, "data"⟩ (Disk.empty.openStore "data").1 :=
  .generations rfl (by decide +kernel) (by rfl)

/-- After the four attempts the third one is read, from an archive file and from a store. -/
theorem attempts_keep_last_save_four :
    (∃ a, lastSaved ⟨.file, "saves/world.zip"⟩ .empty fourAttempts = some a
        ∧ a.id = Text.Uuid.ofNat 2
        ∧ findSave ⟨.file, "saves/world.zip"⟩
            (diskAfter ⟨.file, "saves/world.zip"⟩ .empty fourAttempts)
          = .ok (some a.entries.source))
      ∧ ∃ a, lastSaved ⟨.generations, "data"⟩ (Disk.empty.openStore "data").1 fourAttempts = some a
        ∧ a.id = Text.Uuid.ofNat 2
        ∧ findSave ⟨.generations, "data"⟩
            (diskAfter ⟨.generations, "data"⟩ (Disk.empty.openStore "data").1 fourAttempts)
          = .ok (some a.entries.source) := by
  obtain ⟨hplain, hids⟩ := plain_fourAttempts
  refine ⟨?_, ?_⟩
  · obtain ⟨hsaved, -⟩ := attempts_keep_last_save vacant_file fourAttempts hplain hids
    have hlast : (lastSaved ⟨.file, "saves/world.zip"⟩ .empty fourAttempts).map Attempt.id
        = some (Text.Uuid.ofNat 2) := by
      decide +kernel
    obtain ⟨a, ha, hid⟩ := Option.map_eq_some_iff.mp hlast
    exact ⟨a, ha, hid, (hsaved a ha).2.1⟩
  · obtain ⟨hsaved, -⟩ := attempts_keep_last_save vacant_generations fourAttempts hplain hids
    have hlast : (lastSaved ⟨.generations, "data"⟩ (Disk.empty.openStore "data").1
        fourAttempts).map Attempt.id = some (Text.Uuid.ofNat 2) := by
      decide +kernel
    obtain ⟨a, ha, hid⟩ := Option.map_eq_some_iff.mp hlast
    exact ⟨a, ha, hid, (hsaved a ha).2.1⟩

theorem load_of_folder (hl : l.backend = .file)
    (h : (d.files.stat l.path).map Node.isFolder = .ok true) (w : World) :
    load l w d = (.error (.unopened (.openFile l.path (.reading l.path .isDirectory))), w) := by
  refine load_of_error ?_ w
  rw [findSave, hl]
  dsimp only
  rw [Files.openArchive_of_folder h]
  rfl

/-- The exception: an attempt at `saves/` fails, as no archive can be moved there, but it has made the folder
for its temporary file. Before, there was no save; now a load is refused. -/
theorem load_saves_changes :
    Vacant ⟨.file, "saves/"⟩ .empty
      ∧ lastSaved ⟨.file, "saves/"⟩ .empty [bareAttempt 0 false] = none
      ∧ ∀ w, load ⟨.file, "saves/"⟩ w .empty = (.ok false, w)
        ∧ load ⟨.file, "saves/"⟩ w (diskAfter ⟨.file, "saves/"⟩ .empty [bareAttempt 0 false])
          = (.error (.unopened (.openFile "saves/" (.reading "saves/" .isDirectory))), w) := by
  refine ⟨.file rfl (by rfl), ?_, fun w => ⟨load_of_none (by rfl) w, ?_⟩⟩
  · have hfailed : ((bareAttempt 0 false).run ⟨.file, "saves/"⟩ .empty).result.isOk = false := by
      decide +kernel
    rw [lastSaved, lastSaved, hfailed]
    rfl
  · exact load_of_folder (l := ⟨.file, "saves/"⟩) rfl (by decide +kernel) w

end BlockWorld.Program.Persistence
