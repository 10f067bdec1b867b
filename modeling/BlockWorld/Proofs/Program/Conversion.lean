import BlockWorld.Program.SaveTool
import BlockWorld.Proofs.Program.Persistence
import BlockWorld.Proofs.Save.Disk
/-!
Converting saves. A conversion opens the source, loads it to see that it is whole, and copies its entries
one by one into a new save at the destination. Any of the reads and writes may fail (`Faults`). If it ends
well, the destination holds the entries of the source and no others. If it does not, nothing but folders
has been added to the disk (`Kept`), so that a load of the destination gives what it gave before.

How the proof goes. Copying into any sink either takes all entries over or stops (`copy_tracks`), by
induction on the names. With what is known of the two kinds of sinks this says how a copy ends (`CopyEnds`),
and with the source opened before it and closed after it how a conversion does (`ConvertEnds`). In the
failed case the tree is between the one before and the one with all folders that a conversion may make
(`conversionFolders`), so that `Files.Grown.stat_between` gives what the destination is then.

There is one exception, the same as for attempts to save. A path such as `out/` leads nowhere as long as
`out` is missing, and to a folder once that has been made for the temporary file; then the load is refused
for another reason (`load_out_changes`).
-/
namespace BlockWorld.Save

/-! ## Copying -/

/-- Reads of a save that fail: of the list of its names, and of entries. -/
structure ReadFaults where
  list : Option ArchiveError
  read : String → Option ArchiveError

/-- No read fails. -/
def ReadFaults.none : ReadFaults := ⟨.none, fun _ => .none⟩

/-- A source of which some reads fail. -/
def Source.faulty (source : Source) (f : ReadFaults) : Source where
  names :=
    match f.list with
    | some e => .error e
    | none => source.names
  read name :=
    match f.read name with
    | some e => .error e
    | none => source.read name

theorem Entries.get?_of_read {e : Entries} {f : ReadFaults} {name : String} {data : ByteArray}
    (h : (e.source.faulty f).read name = .ok data) : e.get? name = some data := by
  rw [Source.faulty] at h
  dsimp only at h
  split at h
  · cases h
  · rw [Entries.source] at h
    dsimp only at h
    split at h
    · rename_i found hget
      cases h
      exact hget
    · cases h

/-- Entries in order are read back from their source as they are. -/
theorem Entries.Sorted.entriesOf_source {e : Entries} (he : e.Sorted) :
    Disk.entriesOf e.source = .ok e := by
  have hpairs : ∀ pairs : List (String × ByteArray), pairs ⊆ e.pairs →
      (pairs.map (·.1)).mapM (fun name => do return (name, ← e.source.read name)) = .ok pairs := by
    intro pairs
    induction pairs with
    | nil => exact fun _ => rfl
    | cons p pairs ih =>
      intro hsub
      have hget : e.get? p.1 = some p.2 :=
        he.get?_eq_some_iff.mpr (hsub List.mem_cons_self)
      have hread : e.source.read p.1 = .ok p.2 := by
        rw [Entries.source]
        dsimp only
        rw [hget]
      have hrest := ih fun q hq => hsub (List.mem_cons_of_mem p hq)
      rw [List.map_cons, List.mapM_cons, hread, hrest]
      rfl
  have hall : Entries.ofList e.pairs = e := by
    have hadded : Entries.ofList e.pairs = Entries.empty.insertAll e := rfl
    rw [hadded]
    refine (Entries.sorted_empty.insertAll e).ext he fun name => ?_
    rw [Entries.get?_insertAll he]
    exact Option.or_none
  have hread := hpairs e.pairs (List.Subset.refl _)
  change ((e.pairs.map (·.1)).mapM (fun name => do return (name, ← e.source.read name)) >>=
    fun pairs => Except.ok (Entries.ofList pairs)) = _
  rw [hread]
  exact congrArg Except.ok hall

section Copying

variable {σ : Type} {sink : Sink σ} {holds : Entries → σ → Prop} {torn : σ → Prop}

/-- Copying some names takes the entries of those names over, or stops. -/
theorem copyNames_tracks (ht : sink.Tracks holds torn) {source : Source} {all : Entries}
    (hread : ∀ {name data}, source.read name = .ok data → all.get? name = some data)
    (names : List String) (done : Nat) {e : Entries} {s : σ} (he : e.Sorted) (h : holds e s) :
    (∃ e', (copyNames sink source done names s).error = none
        ∧ holds e' (copyNames sink source done names s).sink ∧ e'.Sorted
        ∧ ∀ name, e'.get? name = if name ∈ names then all.get? name else e.get? name)
      ∨ ((∃ x, (copyNames sink source done names s).error = some x)
        ∧ torn (copyNames sink source done names s).sink) := by
  induction names generalizing done e s with
  | nil => exact .inl ⟨e, rfl, h, he, fun _ => by rw [if_neg List.not_mem_nil]⟩
  | cons name rest ih =>
    rw [copyNames]
    cases hdata : source.read name with
    | error x => exact .inr ⟨⟨_, rfl⟩, ht.torn_of_holds h⟩
    | ok data =>
      have hwrite := ht.write name data h
      dsimp only
      generalize sink.write s name data = written at hwrite
      obtain ⟨s', result⟩ := written
      dsimp only at hwrite
      obtain ⟨rfl, hholds⟩ | ⟨⟨x, rfl⟩, htorn⟩ := hwrite
      · obtain ⟨e', herror, hheld, hsorted, hget⟩ | hstopped :=
          ih (done + 1) (he.insert name data) hholds
        · refine .inl ⟨e', herror, hheld, hsorted, fun other => ?_⟩
          rw [hget, Entries.get?_insert]
          by_cases hrest : other ∈ rest
          · rw [if_pos hrest, if_pos (List.mem_cons_of_mem name hrest)]
          · rw [if_neg hrest]
            by_cases hname : other = name
            · rw [if_pos hname, hname, if_pos List.mem_cons_self, hread hdata]
            · rw [if_neg hname, if_neg (by simp [hname, hrest])]
        · exact .inr hstopped
      · exact .inr ⟨⟨_, rfl⟩, htorn⟩

/-- Copying a save into one without entries makes the two the same, or stops. -/
theorem copy_tracks (ht : sink.Tracks holds torn) {e : Entries} (he : e.Sorted) (f : ReadFaults)
    {s : σ} (h : holds .empty s) :
    ((copy sink (e.source.faulty f) s).error = none ∧ holds e (copy sink (e.source.faulty f) s).sink)
      ∨ ((∃ x, (copy sink (e.source.faulty f) s).error = some x)
        ∧ torn (copy sink (e.source.faulty f) s).sink) := by
  rw [copy]
  cases hnames : (e.source.faulty f).names with
  | error x => exact .inr ⟨⟨_, rfl⟩, ht.torn_of_holds h⟩
  | ok names =>
    obtain rfl : names = e.names := by
      rw [Source.faulty] at hnames
      dsimp only at hnames
      split at hnames
      · cases hnames
      · cases hnames
        rfl
    dsimp only
    have hread : ∀ {name data}, (e.source.faulty f).read name = .ok data → e.get? name = some data :=
      Entries.get?_of_read
    obtain ⟨e', herror, hheld, hsorted, hget⟩ | hstopped :=
      copyNames_tracks ht hread e.names 0 Entries.sorted_empty h
    · obtain rfl : e' = e := by
        refine hsorted.ext he fun name => ?_
        rw [hget]
        by_cases hname : name ∈ e.names
        · rw [if_pos hname]
        · rw [if_neg hname]
          rw [Entries.mem_names, Option.not_isSome_iff_eq_none] at hname
          exact hname.symm
      exact .inl ⟨herror, hheld⟩
    · exact .inr hstopped

end Copying

end BlockWorld.Save

namespace BlockWorld.Program.SaveTool

open Save Disk Persistence

/-! ## Conversions that may fail -/

/-- What fails while a save is converted: reads of the source when it is loaded and when it is copied, and
writes to the destination. -/
structure Faults where
  loading : ReadFaults
  copying : ReadFaults
  writing : OpenSink.WriteFault

/-- Nothing fails. -/
def Faults.none : Faults := ⟨.none, .none, fun _ _ _ => .none⟩

/-- Copies all entries of a save into a new one, where some writes fail. -/
def copySaveWith (writing : OpenSink.WriteFault) (source : Source) (target : Location)
    (compression : String) : Disk → Disk × Except Failure Nat := fun d =>
  match d.openSink target compression with
  | (d, .error e) => (d, .error (.archive e))
  | (d, .ok sink) =>
    let result := copy (OpenSink.faulty writing) source sink
    match result.error with
    | some e => ((d.abortSink result.sink).1.closeSink result.sink, .error (.copy e))
    | none =>
      let (d, finished, _) := d.finishSink result.sink
      (d.closeSink result.sink,
        match finished with
        | .ok () => .ok result.copied
        | .error e => .error (.archive e))

/-- Converts a save while some reads and writes fail. -/
def convertWith (faults : Faults) (source target compression : String) : Command := fun d =>
  if target = "" then (d, .error .noDestination)
  else
    withSource source (fun entries d =>
      match loadWorld (entries.faulty faults.loading) with
      | .error e => (d, .error e)
      | .ok _ =>
        let (d, result) :=
          copySaveWith faults.writing (entries.faulty faults.copying) (.parse target) compression d
        (d, result.map fun n =>
          ["✅ Copied " ++ toString n ++ " entries: " ++ source ++ " → " ++ target])) d

/-- Without faults it is the command of the tool. -/
theorem convertWith_none : convertWith .none = convert := rfl

/-! ## Saves at places -/

/-- No store has anything of its next generation yet. -/
def FreshStores (d : Disk) : Prop := ∀ key, (d.storeAt key).Fresh [(d.storeAt key).nextId]

/-- A disk as it comes about: nothing stands outside the folders, every archive has its entries in order,
each name once, and the next identifier of every store is a new one. -/
structure Sound (d : Disk) : Prop where
  rooted : d.files.Rooted
  sorted : ∀ {key e}, d.files.node? key = some (.archive e) → e.Sorted
  stores : FreshStores d

variable {d d' : Disk} {l : Location} {e : Entries}

theorem node?_of_stat {fs : Files} {path : String} {node : Node} (h : fs.stat path = .ok node)
    (hfile : node ≠ .folder) : ∃ key, fs.node? key = some node := by
  rw [Files.stat] at h
  split at h
  · cases h
  · rename_i key found hfind
    cases h
    exact ⟨key, Files.node?_of_find hfind (by simpa using hfile)⟩
  · cases h

/-- A save that can be opened is one of some entries, in order. -/
theorem Sound.entries (h : Sound d) {save : OpenSave} (hopen : (d.openSource l).2 = .ok save) :
    ∃ e : Entries, e.Sorted ∧ save.source = e.source := by
  cases hl : l.backend with
  | file =>
    rw [openSource_file hl, Files.openArchive] at hopen
    cases hstat : d.files.stat l.path with
    | error p =>
      rw [hstat] at hopen
      cases hopen
    | ok node =>
      rw [hstat] at hopen
      cases node with
      | folder => cases hopen
      | file data => cases hopen
      | archive e =>
        cases hopen
        obtain ⟨key, hkey⟩ := node?_of_stat hstat (by simp)
        exact ⟨e, h.sorted hkey, rfl⟩
  | generations =>
    by_cases hopens : ∃ key, d.Opens l.path key
    · obtain ⟨key, hkey⟩ := hopens
      cases hid : (d.storeAt key).current with
      | error x =>
        rw [openSource_of_error hl hkey hid] at hopen
        cases hopen
      | ok id =>
        rw [openSource_of_current hl hkey hid] at hopen
        cases hopen
        exact ⟨_, (h.stores key).sorted.under _, Generations.look_eq ..⟩
    · rw [openSource_of_not hl (not_exists.mp hopens)] at hopen
      cases hopen

/-! ## How a copy ends -/

section Copies

variable {writing : OpenSink.WriteFault} {source : Source} {compression : String}

theorem copySaveWith_of_error {x : ArchiveError} (h : d.openSink l compression = (d', .error x)) :
    copySaveWith writing source l compression d = (d', .error (.archive x)) := by
  rw [copySaveWith, h]

theorem copySaveWith_of_stopped {sink : OpenSink} {x : CopyError}
    (h : d.openSink l compression = (d', .ok sink))
    (hstop : (copy (OpenSink.faulty writing) source sink).error = some x) :
    copySaveWith writing source l compression d
      = ((d'.abortSink (copy (OpenSink.faulty writing) source sink).sink).1.closeSink
          (copy (OpenSink.faulty writing) source sink).sink, .error (.copy x)) := by
  rw [copySaveWith, h]
  dsimp only
  rw [hstop]

theorem copySaveWith_of_copied {sink : OpenSink} (h : d.openSink l compression = (d', .ok sink))
    (hcopied : (copy (OpenSink.faulty writing) source sink).error = none) :
    (copySaveWith writing source l compression d).1
        = (d'.finishSink (copy (OpenSink.faulty writing) source sink).sink).1.closeSink
          (copy (OpenSink.faulty writing) source sink).sink
      ∧ (copySaveWith writing source l compression d).2.isOk
        = (d'.finishSink (copy (OpenSink.faulty writing) source sink).sink).2.1.isOk := by
  rw [copySaveWith, h]
  dsimp only
  rw [hcopied]
  refine ⟨rfl, ?_⟩
  dsimp only
  generalize (d'.finishSink (copy (OpenSink.faulty writing) source sink).sink).2.1 = finished
  cases finished <;> rfl

/-- How a copy of some entries ends: nothing but folders has been added, and for an archive file only those
on its way, or the entries are at their place and the stores that were open still are. -/
inductive CopyEnds (d : Disk) (l : Location) (e : Entries) : Disk → Bool → Prop where
  | failed {d' : Disk} (hkept : Kept d d')
      (hbelow : l.backend = .file → d'.files.Grown (withFolders l d).files) : CopyEnds d l e d' false
  | copied {d' : Disk} (hholds : HoldsAt d' l false e) (hfolders : d.files.KeepsFolders d'.files)
      (hopen : ∀ key, (d.storeAt key).isOpen = true → (d'.storeAt key).isOpen = true) :
      CopyEnds d l e d' true

theorem CopyEnds.of_files {fs : Files} (hgrown : d.files.Grown fs)
    (hbelow : fs.Grown (d.files.mkdirAll (Text.folderOf l.path)).1) :
    CopyEnds d l e { d with files := fs } false := by
  refine .failed (.of_files hgrown) fun _ => ?_
  rw [files_withFolders]
  exact hbelow

theorem copyEnds_file (hl : l.backend = .file) (he : e.Sorted) (copying : ReadFaults) (d : Disk) :
    CopyEnds d l e (copySaveWith writing (e.source.faulty copying) l compression d).1
      (copySaveWith writing (e.source.faulty copying) l compression d).2.isOk := by
  cases hcreate : ArchiveWriter.create d.files l.path compression with
  | mk fs result =>
    cases result with
    | error x =>
      have hopen : d.openSink l compression = ({ d with files := fs }, .error x) := by
        rw [Disk.openSink, hl]
        simp only [hcreate]
      rw [copySaveWith_of_error hopen]
      obtain h | h := ArchiveWriter.create_error hcreate
      · rw [h]
        exact .of_files (.refl _) (.mkdirAll ..)
      · rw [h]
        exact .of_files (.mkdirAll ..) (.refl _)
    | ok out =>
      obtain ⟨hpath, hempty, hunfinished, -, n, hbegun⟩ := ArchiveWriter.create_ok hcreate
      have hopen : d.openSink l compression = ({ d with files := fs }, .ok (.file out)) := by
        rw [Disk.openSink, hl]
        simp only [hcreate]
      have hstart : OpenSink.file out = .file { out with entries := .empty } := by rw [← hempty]
      have hgrown : d.files.Grown ((d.files.mkdirAll (Text.folderOf l.path)).1.numbered n) :=
        .trans (.mkdirAll ..) (.numbered ..)
      have hbelow : ((d.files.mkdirAll (Text.folderOf l.path)).1.numbered n).Grown
          (d.files.mkdirAll (Text.folderOf l.path)).1 := .of_numbered ..
      obtain ⟨hcopied, hheld⟩ | ⟨⟨x, hstop⟩, entries, htorn⟩ :=
        copy_tracks (OpenSink.tracks_file writing hunfinished) he copying hstart
      · obtain ⟨hdisk, hresult⟩ := copySaveWith_of_copied hopen hcopied
        rw [hheld] at hdisk hresult
        obtain ⟨hfinish, hfailed⟩ | ⟨fs', hfinish, hdone, hstat, hkeeps⟩ :=
          finishSink_file (d := { d with files := fs }) (w := { out with entries := e })
            (hbegun.of_temp rfl) hunfinished
        · rw [hdisk, hresult, hfinish, hfailed]
          exact .of_files hgrown hbelow
        · rw [hdisk, hresult, hfinish, hdone]
          rw [show ({ out with entries := e } : ArchiveWriter).path = l.path from hpath] at hstat
          exact .copied (.file hl hstat) (.trans hgrown.keepsFolders hkeeps) fun _ => id
      · rw [copySaveWith_of_stopped hopen hstop, htorn, abortSink_file (d := { d with files := fs })
          (w := { out with entries }) (hbegun.of_temp rfl) hunfinished]
        exact .of_files hgrown hbelow

theorem openSink_of_not (hl : l.backend = .generations) (h : ∀ key, ¬d.Opens l.path key) :
    d.openSink l compression = (d.withFolder l.path, .error .openStore) := by
  rw [Disk.openSink, hl]
  dsimp only
  rw [openStore_of_not h]

/-- The disk on which a generation has been started. -/
def started (d : Disk) (path : String) (key : PathKey) : Disk :=
  (d.opened path key).setStoreAt key (begun (d.storeAt key).reopen)

theorem files_started (d : Disk) (path : String) (key : PathKey) :
    (started d path key).files = (d.withFolder path).files :=
  (files_setStoreAt ..).trans (files_opened ..)

/-- The writer of that generation. -/
def startedWriter (d : Disk) (key : PathKey) : GenerationWriter :=
  ⟨(d.storeAt key).reopen.session, (d.storeAt key).nextId, .empty, false⟩

theorem openSink_of_opens {key : PathKey} (hl : l.backend = .generations) (h : d.Opens l.path key) :
    d.openSink l compression
      = (started d l.path key, .ok (.generation l.path (startedWriter d key))) := by
  have hwriter : ((d.opened l.path key).store l.path).newWriter
      = (begun (d.storeAt key).reopen, .ok (startedWriter d key)) := by
    rw [h.storeIn_opened.store_eq, storeAt_opened]
    rfl
  have hset := h.storeIn_opened.setStore_eq (begun (d.storeAt key).reopen)
  rw [opened] at hwriter hset
  rw [Disk.openSink, hl]
  dsimp only
  rw [openStore_of_opens h]
  dsimp only
  rw [hwriter]
  dsimp only
  rw [hset]
  rfl

/-- The disk on which that generation has ended, with what it left in the store. -/
def ended (d : Disk) (path : String) (key : PathKey) (s : Generations) : Disk :=
  ((started d path key).setStoreAt key s).setStoreAt key s.close

theorem files_ended (d : Disk) (path : String) (key : PathKey) (s : Generations) :
    (ended d path key s).files = (d.withFolder path).files :=
  (files_setStoreAt ..).trans ((files_setStoreAt ..).trans (files_started ..))

theorem storeAt_ended (d : Disk) (path : String) (key : PathKey) (s : Generations) :
    (ended d path key s).storeAt key = s.close :=
  storeAt_setStoreAt_self ..

theorem storeAt_ended_of_ne {path : String} {key k : PathKey} (h : k ≠ key) (s : Generations) :
    (ended d path key s).storeAt k = d.storeAt k := by
  rw [ended, storeAt_setStoreAt_of_ne h, storeAt_setStoreAt_of_ne h, started,
    storeAt_setStoreAt_of_ne h, storeAt_opened_of_ne h]

section Started

variable {path : String} {key : PathKey} {w : GenerationWriter}

theorem store_started (h : d.Opens path key) :
    (started d path key).store path = begun (d.storeAt key).reopen := by
  rw [(h.place.of_files (files_started ..)).store_eq]
  exact storeAt_setStoreAt_self ..

theorem closeStore_started (h : d.Opens path key) (s : Generations) :
    ((started d path key).setStore path s).closeStore path = ended d path key s := by
  have hplace : (started d path key).StoreIn path key := h.place.of_files (files_started ..)
  have hplace' := hplace.of_files (files_setStoreAt (started d path key) key s)
  rw [hplace.setStore_eq, hplace'.closeStore_eq, storeAt_setStoreAt_self, ended]

theorem abort_started (h : d.Opens path key) (hw : w.finished = false) :
    ((started d path key).abortSink (.generation path w)).1.closeSink (.generation path w)
      = ended d path key ((begun (d.storeAt key).reopen).drop w.generation) := by
  rw [abortSink_generation _ _ hw, store_started h]
  exact closeStore_started h _

theorem finish_started (h : d.Opens path key) (hw : w.finished = false)
    (hsession : w.session = (d.storeAt key).reopen.session) :
    ((started d path key).finishSink (.generation path w)).1.closeSink (.generation path w)
        = ended d path key ((begun (d.storeAt key).reopen).publish w).1
      ∧ ((started d path key).finishSink (.generation path w)).2.1.isOk = true := by
  have hserves : ((started d path key).store path).serves w.session = true := by
    rw [store_started h, hsession]
    simp [Generations.serves, begun, Generations.reopen]
  obtain ⟨hfinish, hdone⟩ := finishSink_generation (started d path key) path w hw hserves
  rw [hfinish, store_started h]
  exact ⟨closeStore_started h _, hdone⟩

end Started

/-- A store that has been closed holds the generation that it marks. -/
theorem holdsAt_ended {key : PathKey} (hkey : d.Opens l.path key) (hl : l.backend = .generations)
    {s : Generations} {id : String} (hmarks : s.Marks id e) : HoldsAt (ended d l.path key s) l false e := by
  have hfolders := hkey.hasFolders
  have hmarks' : s.close.Marks id e := hmarks.of_database rfl
  rw [← files_ended d l.path key s] at hfolders
  rw [← storeAt_ended d l.path key s] at hmarks'
  refine .generations hl hfolders (hkey.place.of_files (files_ended ..)) ?_ hmarks'
  rw [storeAt_ended]
  rfl

theorem copyEnds_generations (hd : FreshStores d) (hl : l.backend = .generations) (he : e.Sorted)
    (copying : ReadFaults) :
    CopyEnds d l e (copySaveWith writing (e.source.faulty copying) l compression d).1
      (copySaveWith writing (e.source.faulty copying) l compression d).2.isOk := by
  by_cases hopens : ∃ key, d.Opens l.path key
  · obtain ⟨key, hkey⟩ := hopens
    have hopen : d.openSink l compression = _ := openSink_of_opens hl hkey
    have hbegun : (begun (d.storeAt key).reopen).Fresh [(d.storeAt key).nextId] :=
      (hd key).of_database rfl
    have hplain : ∀ id ∈ [(d.storeAt key).nextId], Text.Uuid.IsPlain id :=
      fun id hid => List.mem_singleton.mp hid ▸ Text.Uuid.isPlain_ofNat _
    have hstart : ∃ batch, OpenSink.generation l.path (startedWriter d key)
        = .generation l.path { startedWriter d key with batch }
        ∧ Batch batch (startedWriter d key).generation Entries.empty.pairs ∧ Entries.empty.Sorted :=
      ⟨_, rfl, batch_empty _, Entries.sorted_empty⟩
    obtain ⟨hcopied, batch, hheld, hbatch, -⟩ | ⟨⟨x, hstop⟩, batch, htorn⟩ :=
      copy_tracks (OpenSink.tracks_generation writing l.path rfl) he copying hstart
    · obtain ⟨hdisk, hresult⟩ := copySaveWith_of_copied hopen hcopied
      obtain ⟨hfinish, hdone⟩ :=
        finish_started (w := { startedWriter d key with batch }) hkey rfl rfl
      obtain ⟨-, hmarks⟩ := hbegun.publish (w := { startedWriter d key with batch }) hplain
        List.not_mem_nil hbatch
      rw [hdisk, hresult, hheld, hfinish, hdone]
      generalize (Generations.publish _ _).1 = published at hmarks
      refine .copied (holdsAt_ended hkey hl hmarks) ?_ fun k hk => ?_
      · rw [files_ended]
        exact (Kept.withFolder d l.path).files.keepsFolders
      · have hne : k ≠ key := by
          rintro rfl
          rw [hkey.closed] at hk
          cases hk
        rwa [storeAt_ended_of_ne hne]
    · have hdrop : (begun (d.storeAt key).reopen).drop (startedWriter d key).generation
          = begun (d.storeAt key).reopen := hbegun.drop
      rw [copySaveWith_of_stopped hopen hstop, htorn, abort_started hkey rfl]
      refine .failed (hkey.kept (files_ended ..) (fun k hk => storeAt_ended_of_ne hk _) ?_ ?_)
        fun hfile => by rw [hl] at hfile; cases hfile
      · rw [storeAt_ended]
        change ((begun (d.storeAt key).reopen).drop (startedWriter d key).generation).database = _
        rw [hdrop]
        rfl
      · rw [storeAt_ended]
        rfl
  · rw [copySaveWith_of_error (openSink_of_not hl (not_exists.mp hopens))]
    exact .failed (.withFolder ..) fun hfile => by rw [hl] at hfile; cases hfile

/-- A copy to any place. -/
theorem copyEnds (hd : FreshStores d) (he : e.Sorted) (copying : ReadFaults) (l : Location) :
    CopyEnds d l e (copySaveWith writing (e.source.faulty copying) l compression d).1
      (copySaveWith writing (e.source.faulty copying) l compression d).2.isOk := by
  cases hl : l.backend with
  | file => exact copyEnds_file hl he copying d
  | generations => exact copyEnds_generations hd hl he copying

end Copies

/-! ## Conversions -/

theorem FreshStores.opened (h : FreshStores d) (path : String) (key : PathKey) :
    FreshStores (d.opened path key) := by
  intro k
  by_cases hk : k = key
  · rw [hk, storeAt_opened]
    exact (h key).of_database rfl
  · rw [storeAt_opened_of_ne hk]
    exact h k

theorem FreshStores.openSource {save : OpenSave} (h : FreshStores d)
    (hopen : d.openSource l = (d', .ok save)) : FreshStores d' := by
  obtain ⟨-, rfl | ⟨key, rfl⟩⟩ := reading_of_openSource hopen
  · exact h
  · exact h.opened l.path key

/-- Closing the source leaves the save at the destination. -/
theorem holdsAt_closeSource {save : OpenSave} {d₁ d₂ : Disk} (h : HoldsAt d₂ l false e)
    (hreading : Reading d save d₁) (hfolders : d₁.files.KeepsFolders d₂.files)
    (hopen : ∀ key, (d₁.storeAt key).isOpen = true → (d₂.storeAt key).isOpen = true) :
    HoldsAt (d₂.closeSource save) l false e := by
  cases hreading with
  | file hstore _ =>
    rw [Disk.closeSource, hstore]
    exact h
  | @store path key hstore hplace hread _ =>
    rw [Disk.closeSource, hstore]
    dsimp only
    rw [(hplace.kept hfolders).closeStore_eq]
    refine h.transfer (.refl _) id fun k hk => storeAt_setStoreAt_of_ne ?_ _
    -- The store of the source is open, so it is not that of the destination.
    rintro rfl
    rw [hopen k hread] at hk
    cases hk

/-- What loading the save at a place gives. -/
def loadAt (d : Disk) (l : Location) : Except Failure World :=
  match (d.openSource l).2 with
  | .error e => .error (.archive e)
  | .ok save => loadWorld save.source

/-- The disk with the folders that a conversion makes, as far as they can be made: those of a store that is
the source, and those of an archive file that is the destination. -/
def conversionFolders (d : Disk) (source target : Location) : Disk :=
  withFolders target (d.withSource source)

/-- How a conversion ends: nothing but folders has been added, or the destination holds the entries of the
source. -/
inductive ConvertEnds (d : Disk) (source target : Location) : Disk → Bool → Prop where
  | failed {d' : Disk} (hkept : Kept d d')
      (hbelow : target.backend = .file → d'.files.Grown (conversionFolders d source target).files) :
      ConvertEnds d source target d' false
  | converted {d' : Disk} {save : OpenSave} {e : Entries} (he : e.Sorted)
      (hsource : (d.openSource source).2 = .ok save) (hentries : save.source = e.source)
      (htarget : HoldsAt d' target false e) : ConvertEnds d source target d' true

theorem convertEnds (hd : Sound d) (faults : Faults) (source target compression : String) :
    ConvertEnds d (.parse source) (.parse target)
      (convertWith faults source target compression d).1
      (convertWith faults source target compression d).2.isOk := by
  -- Before anything is written there are at most the folders of the source.
  have hread {d' : Disk} (hfiles : d'.files = (d.withSource (.parse source)).files) :
      d'.files.Grown (conversionFolders d (.parse source) (.parse target)).files := by
    rw [hfiles]
    exact grown_withFolders ..
  rw [convertWith]
  split
  · refine .failed (.refl d) fun _ => ?_
    exact .trans (kept_withSource d _).files (grown_withFolders ..)
  rw [withSource]
  cases hsource : d.openSource (.parse source) with
  | mk d₁ result =>
    have hfiles : d₁.files = (d.withSource (.parse source)).files := by
      rw [← files_openSource, hsource]
    cases result with
    | error x => exact .failed (kept_of_openSource_error hsource) fun _ => hread hfiles
    | ok save =>
      have hopen : (d.openSource (.parse source)).2 = .ok save := by rw [hsource]
      obtain ⟨hreading, -⟩ := reading_of_openSource hsource
      obtain ⟨e, he, hentries⟩ := hd.entries hopen
      dsimp only
      cases hload : loadWorld (save.source.faulty faults.loading) with
      | error x =>
        refine .failed (hreading.kept_closeSource (.refl d₁)) fun _ => hread ?_
        exact (files_closeSource d₁ save).trans hfiles
      | ok w =>
        have hends : CopyEnds d₁ (.parse target) e
            (copySaveWith faults.writing (e.source.faulty faults.copying) (.parse target)
              compression d₁).1 _ :=
          copyEnds (hd.stores.openSource hsource) he faults.copying (.parse target)
        rw [hentries]
        dsimp only
        generalize copySaveWith faults.writing (e.source.faulty faults.copying) (.parse target)
          compression d₁ = copied at hends
        obtain ⟨d₂, result⟩ := copied
        cases result with
        | error x =>
          cases hends with
          | failed hkept hbelow =>
            refine .failed (hreading.kept_closeSource hkept) fun hfile => ?_
            rw [files_closeSource, conversionFolders, files_withFolders, ← hfiles,
              ← files_withFolders]
            exact hbelow hfile
        | ok n =>
          cases hends with
          | copied hholds hfolders hstill =>
            exact .converted he hopen hentries (holdsAt_closeSource hholds hreading hfolders hstill)

/-! ## What is read and loaded afterwards -/

theorem readSave_of_ok {save : OpenSave} (h : (d.openSource l).2 = .ok save) :
    (d.readSave l).2 = entriesOf save.source := by
  rw [readSave]
  cases hsource : d.openSource l with
  | mk d₁ result =>
    rw [hsource] at h
    subst h
    rfl

theorem loadAt_of_ok {save : OpenSave} (h : (d.openSource l).2 = .ok save) :
    loadAt d l = loadWorld save.source := by
  rw [loadAt, h]

theorem loadAt_congr (h : (d'.openSource l).2 = (d.openSource l).2) : loadAt d' l = loadAt d l := by
  rw [loadAt, loadAt, h]

theorem loadAt_file (hl : l.backend = .file) (h : d'.files.stat l.path = d.files.stat l.path) :
    loadAt d' l = loadAt d l := by
  refine loadAt_congr ?_
  rw [openSource_file hl, openSource_file hl, Files.openArchive, Files.openArchive, h]

/-- A path that appears holds no save, unless it goes back up. -/
theorem loadAt_of_appears (hl : l.backend = .file) (h : d.files.Appears d'.files l.path)
    (hgrown : d.files.Grown d'.files) (hroot : d.files.Rooted) (hup : ".." ∉ Files.namesOf l.path) :
    ∃ e, loadAt d' l = .error e := by
  obtain ⟨e, hopen, -⟩ := h.openArchive hgrown hroot hup
  refine ⟨.archive e, ?_⟩
  rw [loadAt, openSource_file hl, hopen]
  rfl

/-- If a conversion ends well, the destination holds the entries of the source, byte for byte and no others,
and loading it gives the same world. If it fails, for whatever reason, nothing but folders has been added
to the disk, and a load of the destination gives what it gave before.

The exception is an archive file whose path appears with the folders that the conversion makes: it led to
nothing, and leads somewhere once the folders of the destination, and those of a store that is the source,
are there. Its load may then be that of the disk with these folders, which is refused unless the path goes
back up. -/
theorem converted_or_kept {d after : Disk} {result : Except Failure (List String)} (hd : Sound d)
    (faults : Faults) {source target compression : String}
    (h : convertWith faults source target compression d = (after, result)) :
    (∀ lines, result = .ok lines →
        ∃ e, (d.readSave (.parse source)).2 = .ok e ∧ (after.readSave (.parse target)).2 = .ok e
          ∧ loadAt after (.parse target) = loadAt d (.parse source))
      ∧ ∀ failure, result = .error failure →
        Kept d after
          ∧ (loadAt after (.parse target) = loadAt d (.parse target)
            ∨ (Location.parse target).backend = .file
              ∧ d.files.Appears (conversionFolders d (.parse source) (.parse target)).files
                (Location.parse target).path
              ∧ loadAt after (.parse target)
                = loadAt (conversionFolders d (.parse source) (.parse target)) (.parse target)
              ∧ (".." ∉ Files.namesOf (Location.parse target).path →
                ∃ e, loadAt after (.parse target) = .error e)) := by
  have hends := convertEnds hd faults source target compression
  rw [h] at hends
  constructor
  · rintro lines rfl
    cases hends with
    | @converted save e he hsource hentries htarget =>
      obtain ⟨save', htarget, hentries'⟩ := htarget.openSource he
      refine ⟨e, ?_, ?_, ?_⟩
      · rw [readSave_of_ok hsource, hentries, he.entriesOf_source]
      · rw [readSave_of_ok htarget, hentries', he.entriesOf_source]
      · rw [loadAt_of_ok htarget, loadAt_of_ok hsource, hentries, hentries']
  · rintro failure rfl
    cases hends with
    | failed hkept hbelow =>
      refine ⟨hkept, ?_⟩
      cases hl : (Location.parse target).backend with
      | generations => exact .inl (loadAt_congr (hkept.openSource_generations hl))
      | file =>
        obtain hstat | ⟨happears, hstat⟩ := hkept.files.stat_between (hbelow hl) _
        · exact .inl (loadAt_file hl hstat)
        · have hload := loadAt_file hl hstat
          refine .inr ⟨rfl, happears, hload, fun hup => ?_⟩
          rw [hload]
          exact loadAt_of_appears hl happears (hkept.files.trans (hbelow hl)) hd.rooted hup

/-- Some notes as the only entry of a save. -/
def notes : Entries := ⟨[("notes.txt", ⟨#[1, 2]⟩)]⟩

/-- A disk with two archive files. -/
def twoArchives : Disk where
  files := (Files.empty.put ["a.zip"] (.archive notes)).put ["b.zip"]
    (.archive ⟨[("old.txt", ⟨#[3]⟩)]⟩)
  stores := []

theorem node?_twoArchives {key : PathKey} (h : key ≠ []) :
    twoArchives.files.node? key
      = if key = ["b.zip"] then some (.archive ⟨[("old.txt", ⟨#[3]⟩)]⟩)
        else if key = ["a.zip"] then some (.archive notes) else none := by
  rw [twoArchives, Files.node?_put (by simp), Files.node?_put (by simp), Files.node?, if_neg h]
  rfl

theorem sound_twoArchives : Sound twoArchives where
  rooted := by
    intro place name hplace
    have hnil : place ≠ [] := Files.ne_nil_of_free hplace
    have hne : ∀ file, place ++ [name] ≠ [file] := by
      intro file he
      exact hnil (List.append_eq_singleton_iff.mp he |>.elim And.left fun h => absurd h.2 (by simp))
    rw [node?_twoArchives (by simp), if_neg (hne _), if_neg (hne _)]
  sorted := by
    intro key e h
    have hkey : key ≠ [] := Files.ne_nil_of_not_folder (by rw [h]; simp)
    rw [node?_twoArchives hkey] at h
    split at h
    · cases h
      exact List.pairwise_singleton ..
    · split at h
      · cases h
        exact List.pairwise_singleton ..
      · cases h
  stores := fun _ => ⟨Entries.sorted_empty, .inl rfl, fun _ _ _ _ => rfl⟩

/-- The notes replace the save of an archive file, and get into a store. An unknown compression leaves the
archive file as it was. -/
theorem converted_or_kept_notes :
    Sound twoArchives
      ∧ (convert "zip:a.zip" "zip:b.zip" "" twoArchives).2
        = .ok ["✅ Copied 1 entries: zip:a.zip → zip:b.zip"]
      ∧ ((convert "zip:a.zip" "zip:b.zip" "" twoArchives).1.readSave (.parse "zip:b.zip")).2 = .ok notes
      ∧ ((convert "zip:a.zip" "badger:data" "" twoArchives).1.readSave (.parse "badger:data")).2
        = .ok notes
      ∧ loadAt (convert "zip:a.zip" "zip:b.zip" "lz4" twoArchives).1 (.parse "zip:b.zip")
        = loadAt twoArchives (.parse "zip:b.zip") := by
  have hnotes : (twoArchives.readSave (.parse "zip:a.zip")).2 = .ok notes := by rfl
  have hfile : (convert "zip:a.zip" "zip:b.zip" "" twoArchives).2
      = .ok ["✅ Copied 1 entries: zip:a.zip → zip:b.zip"] := by decide +kernel
  have hstore : (convert "zip:a.zip" "badger:data" "" twoArchives).2
      = .ok ["✅ Copied 1 entries: zip:a.zip → badger:data"] := by decide +kernel
  have hfailed : (convert "zip:a.zip" "zip:b.zip" "lz4" twoArchives).2
      = .error (.archive (.compression "lz4")) := by decide +kernel
  have hrun (target compression : String) :
      convertWith .none "zip:a.zip" target compression twoArchives
        = ((convert "zip:a.zip" target compression twoArchives).1,
          (convert "zip:a.zip" target compression twoArchives).2) := by rw [convertWith_none]
  refine ⟨sound_twoArchives, hfile, ?_, ?_, ?_⟩
  · obtain ⟨e, hsource, htarget, -⟩ :=
      (converted_or_kept sound_twoArchives .none (hrun "zip:b.zip" "")).1 _ hfile
    rwa [← hsource, hnotes] at htarget
  · obtain ⟨e, hsource, htarget, -⟩ :=
      (converted_or_kept sound_twoArchives .none (hrun "badger:data" "")).1 _ hstore
    rwa [← hsource, hnotes] at htarget
  · obtain ⟨-, hload | ⟨-, happears, -⟩⟩ :=
      (converted_or_kept sound_twoArchives .none (hrun "zip:b.zip" "lz4")).2 _ hfailed
    · exact hload
    · have hthere : (twoArchives.files.stat "b.zip").isOk = true := by decide +kernel
      rw [show twoArchives.files.stat "b.zip" = _ from happears.before] at hthere
      cases hthere

theorem loadAt_of_folder (hl : l.backend = .file)
    (h : (d.files.stat l.path).map Node.isFolder = .ok true) :
    loadAt d l = .error (.archive (.openFile l.path (.reading l.path .isDirectory))) := by
  rw [loadAt, openSource_file hl, Files.openArchive_of_folder h]
  rfl

/-- The exception: a conversion to `out/` fails, as no archive can be moved there, but it has made the folder
for its temporary file. What was missing before is a folder now. -/
theorem load_out_changes :
    Sound twoArchives
      ∧ (convert "zip:a.zip" "zip:out/" "" twoArchives).2
        = .error (.archive (.replaceFile (.renaming "out/.out-1000000000.tmp" "out/" .fileExists)))
      ∧ loadAt twoArchives (.parse "zip:out/")
        = .error (.archive (.openFile "out/" (.opening "out/" .noSuchFile)))
      ∧ loadAt (convert "zip:a.zip" "zip:out/" "" twoArchives).1 (.parse "zip:out/")
        = .error (.archive (.openFile "out/" (.reading "out/" .isDirectory))) := by
  refine ⟨sound_twoArchives, by decide +kernel, by rfl, ?_⟩
  exact loadAt_of_folder (l := .parse "zip:out/") rfl (by decide +kernel)

end BlockWorld.Program.SaveTool
