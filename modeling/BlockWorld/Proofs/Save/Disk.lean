import BlockWorld.Proofs.Save.Folders
import BlockWorld.Proofs.Save.Generations
import BlockWorld.Save.Disk
/-!
Disks under opening and closing. A store is at the place that its folder has (`StoreIn`), and it can be
opened if the folder is there or can be made and nobody else has it open (`Opens`). Opening a save for
reading and closing it again adds at most folders (`Kept`), and it is known which (`files_openSource`).
After that every store opens as it did before, and with the same keys in it
(`Kept.openSource_generations`). An archive file opens as before too, unless its path appears with the
folders (`Kept.openSource_file`, `Files.Appears.openArchive`).

How the proof goes. A disk is a tree of files and a table of stores, each at the place of its folder. A path
leads to the store at the place of its folder (`StoreIn.store_eq`), and nothing but the way there depends on
the tree. So `Kept` has one condition on the tree, that folders have been added, and one on the table, that
keys are the same and stores open as before. `Kept.opens_iff` says that the same stores can be opened then,
since making a folder succeeds in both trees or in none. Opening for reading is followed step by step, through
the folder that is made (`withFolder`), the store that is opened (`opened`) and the reader on its current
generation (`newReader_opened`); each of these keeps the disk.

`HoldsAt` says that a save with some entries is at a place. It goes through all changes that keep folders,
archives and keys (`HoldsAt.transfer`), which is how a save outlives what happens after it.
-/
namespace BlockWorld.Save

/-- What a reader sees of a generation while the store is open. -/
def Generations.look (s : Generations) (id : String) : Source :=
  ⟨.ok (s.database.under (generationStart id)).names, s.read id⟩

theorem Generations.source_of_open {s : Generations} (h : s.isOpen = true) (id : String) :
    s.source ⟨s.session, id⟩ = s.look id := by
  have hserves : s.serves s.session = true := by simp [serves, h]
  rw [source, if_pos hserves, look]

theorem Generations.look_of_database {s s' : Generations} (h : s'.database = s.database)
    (id : String) : s'.look id = s.look id := by
  have hread : s'.read id = s.read id := by
    funext name
    rw [read, read, h]
  rw [look, look, h, hread]

theorem Generations.look_eq (s : Generations) (id : String) :
    s.look id = (s.database.under (generationStart id)).source := by
  rw [look, Entries.source]
  congr 1
  funext name
  cases hget : s.database.get? (generationStart id ++ name) <;>
    simp only [read, Entries.get?_under, hget]

/-- The entries of the current generation of a store. -/
theorem Generations.Marks.look_eq {s : Generations} {id : String} {e : Entries}
    (h : s.Marks id e) (he : e.Sorted) : s.look id = e.source := by
  have hunder : s.database.under (generationStart id) = e :=
    (h.sorted.under _).ext he fun name => (Entries.get?_under ..).trans (h.under name)
  rw [Generations.look_eq, hunder]

theorem Generations.current_of_database {s s' : Generations} (h : s'.database = s.database) :
    s'.current = s.current := by
  rw [current, current, h]

theorem Files.openArchive_of_folder {fs : Files} {path : String}
    (h : (fs.stat path).map Node.isFolder = .ok true) :
    fs.openArchive path = .error (.openFile path (.reading path .isDirectory)) := by
  rw [Files.openArchive]
  cases hstat : fs.stat path with
  | error p =>
    rw [hstat] at h
    cases h
  | ok node =>
    rw [hstat] at h
    cases node with
    | folder => rfl
    | file data => cases h
    | archive e => cases h

/-- Where a path appears there is a folder or a refusal, as long as the path does not go back up. It holds
no archive, and is no longer said to be missing. -/
theorem Files.Appears.openArchive {fs fs' : Files} {path : String} (h : fs.Appears fs' path)
    (hgrown : fs.Grown fs') (hroot : fs.Rooted) (hup : ".." ∉ namesOf path) :
    ∃ e, fs'.openArchive path = .error e ∧ e.reasons = [] := by
  rw [Files.openArchive]
  cases hstat : fs'.stat path with
  | error p =>
    have hother : p ≠ .noSuchFile := fun hp => h.after (hp ▸ hstat)
    exact ⟨_, rfl, if_neg hother⟩
  | ok node =>
    obtain rfl := hgrown.stat_folder hroot hup h.before hstat
    exact ⟨_, rfl, rfl⟩

namespace Disk

variable {d d' : Disk} {path : String} {key : PathKey}

/-! ## Stores at their places -/

/-- The store at a place; where there is none yet, it is empty. -/
def storeAt (d : Disk) (key : PathKey) : Generations := (d.stores.lookup key).getD .empty

/-- Replaces the store at a place. -/
def setStoreAt (d : Disk) (key : PathKey) (s : Generations) : Disk :=
  { d with stores := (key, s) :: d.stores.filter (·.1 != key) }

theorem files_setStoreAt (d : Disk) (key : PathKey) (s : Generations) :
    (d.setStoreAt key s).files = d.files := rfl

theorem storeAt_setStoreAt (d : Disk) (key : PathKey) (s : Generations) (k : PathKey) :
    (d.setStoreAt key s).storeAt k = if k = key then s else d.storeAt k := by
  rw [storeAt, setStoreAt, List.lookup_cons]
  by_cases hk : k = key
  · rw [if_pos hk, beq_iff_eq.mpr hk]
    rfl
  · rw [if_neg hk, beq_eq_false_iff_ne.mpr hk]
    dsimp only
    rw [Files.lookup_filter_ne, if_neg hk]
    rfl

theorem storeAt_setStoreAt_self (d : Disk) (key : PathKey) (s : Generations) :
    (d.setStoreAt key s).storeAt key = s := by
  rw [storeAt_setStoreAt, if_pos rfl]

theorem storeAt_setStoreAt_of_ne {k : PathKey} (h : k ≠ key) (s : Generations) :
    (d.setStoreAt key s).storeAt k = d.storeAt k := by
  rw [storeAt_setStoreAt, if_neg h]

theorem setStore_eq_setStoreAt (d : Disk) (path : String) (s : Generations) :
    d.setStore path s = d.setStoreAt (d.storeKey path) s := rfl

theorem store_setStore (d : Disk) (path : String) (s : Generations) :
    (d.setStore path s).store path = s :=
  storeAt_setStoreAt_self d (d.storeKey path) s

/-- The folder of a path's store is there, at a place. -/
def StoreIn (d : Disk) (path : String) (key : PathKey) : Prop :=
  d.files.find (storeFolder path) = .ok (key, some .folder)

namespace StoreIn

theorem storeKey_eq (h : d.StoreIn path key) : d.storeKey path = key := by
  rw [storeKey, Files.key?, h]
  rfl

theorem store_eq (h : d.StoreIn path key) : d.store path = d.storeAt key := by
  rw [store, h.storeKey_eq, storeAt]

theorem setStore_eq (h : d.StoreIn path key) (s : Generations) :
    d.setStore path s = d.setStoreAt key s := by
  rw [setStore, h.storeKey_eq, setStoreAt]

theorem closeStore_eq (h : d.StoreIn path key) :
    d.closeStore path = d.setStoreAt key (d.storeAt key).close := by
  rw [closeStore, h.setStore_eq, h.store_eq]

theorem of_files (h : d.StoreIn path key) (hfiles : d'.files = d.files) : d'.StoreIn path key := by
  rw [StoreIn, hfiles]
  exact h

theorem kept (h : d.StoreIn path key) (hkeeps : d.files.KeepsFolders d'.files) :
    d'.StoreIn path key :=
  hkeeps.find_folder h

end StoreIn

/-! ## Opening stores -/

/-- The disk with the folder of a store, as far as it can be made. -/
def withFolder (d : Disk) (path : String) : Disk :=
  { d with files := (d.files.mkdirAll (storeFolder path)).1 }

theorem files_withFolder (d : Disk) (path : String) :
    (d.withFolder path).files = (d.files.mkdirAll (storeFolder path)).1 := by
  rw [withFolder]

theorem storeAt_withFolder (d : Disk) (path : String) (key : PathKey) :
    (d.withFolder path).storeAt key = d.storeAt key := by
  rw [storeAt, storeAt, withFolder]

/-- A store that can be opened. -/
structure Opens (d : Disk) (path : String) (key : PathKey) : Prop where
  made : (d.files.mkdirAll (storeFolder path)).2.isOk = true
  place : (d.withFolder path).StoreIn path key
  closed : (d.storeAt key).isOpen = false

theorem cleanPath_ne_nil (cs : List Char) : Text.cleanPath cs ≠ [] := by
  rw [Text.cleanPath]
  split
  · exact List.cons_ne_nil _ _
  · split
    · exact List.cons_ne_nil _ _
    · rename_i hsome
      exact fun he => hsome (List.isEmpty_iff.mpr he)

theorem storeFolder_ne_empty (path : String) : storeFolder path ≠ "" := by
  rw [storeFolder, Text.joinPath, if_neg (by simp)]
  split
  · exact fun he => cleanPath_ne_nil _ (String.ofList_eq_empty_iff.mp he)
  · exact fun he => cleanPath_ne_nil _ (String.ofList_eq_empty_iff.mp he)

theorem eq_ok_of_isOk {ε : Type} {r : Except ε Unit} (h : r.isOk = true) : r = .ok () := by
  cases r with
  | error e => cases h
  | ok u => rfl

/-- A folder that can be made has a place. -/
theorem storeIn_of_made (h : (d.files.mkdirAll (storeFolder path)).2.isOk = true) :
    ∃ key, (d.withFolder path).StoreIn path key := by
  simp only [StoreIn, files_withFolder]
  exact Files.find_mkdirAll (storeFolder_ne_empty path) (eq_ok_of_isOk h)

theorem openStore_of_made (h : (d.files.mkdirAll (storeFolder path)).2 = .ok ())
    (hkey : (d.withFolder path).StoreIn path key) :
    d.openStore path
      = if (d.storeAt key).isOpen then (d.withFolder path, .error .openStore)
        else ((d.withFolder path).setStoreAt key (d.storeAt key).reopen, .ok ()) := by
  have hstore := storeAt_withFolder d path key
  rw [openStore]
  rw [withFolder] at hkey hstore ⊢
  generalize d.files.mkdirAll (storeFolder path) = made at h hkey hstore
  obtain ⟨files, result⟩ := made
  cases h
  dsimp only at hkey hstore ⊢
  rw [hkey.setStore_eq, hkey.store_eq, hstore]

theorem openStore_of_opens (h : d.Opens path key) :
    d.openStore path = ((d.withFolder path).setStoreAt key (d.storeAt key).reopen, .ok ()) := by
  rw [openStore_of_made (eq_ok_of_isOk h.made) h.place, h.closed]
  rfl

theorem openStore_of_not (h : ∀ key, ¬d.Opens path key) :
    d.openStore path = (d.withFolder path, .error .openStore) := by
  cases hmade : (d.files.mkdirAll (storeFolder path)).2 with
  | error e =>
    rw [openStore, withFolder]
    generalize d.files.mkdirAll (storeFolder path) = made at hmade
    obtain ⟨files, result⟩ := made
    cases hmade
    rfl
  | ok u =>
    have hok : (d.files.mkdirAll (storeFolder path)).2.isOk = true := by rw [hmade]; rfl
    obtain ⟨key, hkey⟩ := storeIn_of_made hok
    have hopen : (d.storeAt key).isOpen = true :=
      Bool.not_eq_false _ ▸ fun hclosed => h key ⟨hok, hkey, hclosed⟩
    rw [openStore_of_made hmade hkey, if_pos hopen]

/-! ## Disks that are as before but for folders -/

/-- A disk to which nothing but folders has been added. Its stores have the same keys, and are open or
closed as before; they may have been opened in between. -/
structure Kept (d d' : Disk) : Prop where
  files : d.files.Grown d'.files
  database : ∀ key, (d'.storeAt key).database = (d.storeAt key).database
  isOpen : ∀ key, (d'.storeAt key).isOpen = (d.storeAt key).isOpen

namespace Kept

theorem refl (d : Disk) : Kept d d := ⟨.refl _, fun _ => rfl, fun _ => rfl⟩

theorem trans {d₁ d₂ d₃ : Disk} (h : Kept d₁ d₂) (h' : Kept d₂ d₃) : Kept d₁ d₃ :=
  ⟨h.files.trans h'.files, fun key => (h'.database key).trans (h.database key),
    fun key => (h'.isOpen key).trans (h.isOpen key)⟩

theorem of_files {files : Files} (h : d.files.Grown files) : Kept d { d with files } :=
  ⟨h, fun _ => rfl, fun _ => rfl⟩

theorem withFolder (d : Disk) (path : String) : Kept d (d.withFolder path) :=
  .of_files (.mkdirAll ..)

/-- A store is replaced by one with the same keys. -/
theorem setStore (d : Disk) {s : Generations} (hdata : s.database = (d.store path).database)
    (hopen : s.isOpen = (d.store path).isOpen) : Kept d (d.setStore path s) := by
  rw [setStore_eq_setStoreAt]
  refine ⟨.refl _, fun key => ?_, fun key => ?_⟩ <;> rw [storeAt_setStoreAt] <;> split
  · rename_i hkey
    rw [hdata, hkey]
    rfl
  · rfl
  · rename_i hkey
    rw [hopen, hkey]
    rfl
  · rfl

theorem close (h : Kept d d') (key : PathKey) :
    Kept (d.setStoreAt key (d.storeAt key).close) (d'.setStoreAt key (d'.storeAt key).close) := by
  refine ⟨h.files, fun k => ?_, fun k => ?_⟩
  · rw [storeAt_setStoreAt, storeAt_setStoreAt]
    split
    · exact h.database key
    · exact h.database k
  · rw [storeAt_setStoreAt, storeAt_setStoreAt]
    split
    · rfl
    · exact h.isOpen k

theorem grown_withFolder (h : Kept d d')
    (hmade : (d.files.mkdirAll (storeFolder path)).2.isOk = true) :
    (d.withFolder path).files.Grown (d'.withFolder path).files := by
  rw [files_withFolder, files_withFolder]
  exact (h.files.isOk_mkdirAll (storeFolder path)).2 hmade

/-- The same stores can be opened. -/
theorem opens_iff (h : Kept d d') : d'.Opens path key ↔ d.Opens path key := by
  have hok := (h.files.isOk_mkdirAll (storeFolder path)).1
  constructor
  · rintro ⟨hmade, hplace, hclosed⟩
    rw [hok] at hmade
    obtain ⟨k, hk⟩ := storeIn_of_made hmade
    obtain rfl : k = key := by
      have hboth := hplace.symm.trans (hk.kept (h.grown_withFolder hmade).keepsFolders)
      cases hboth
      rfl
    exact ⟨hmade, hk, (h.isOpen k).symm.trans hclosed⟩
  · rintro ⟨hmade, hplace, hclosed⟩
    exact ⟨hok.trans hmade, hplace.kept (h.grown_withFolder hmade).keepsFolders,
      (h.isOpen key).trans hclosed⟩

end Kept

/-! ## Opening saves -/

section Opening

variable {l : Location}

/-- A store that is opened for reading. -/
def opened (d : Disk) (path : String) (key : PathKey) : Disk :=
  (d.withFolder path).setStoreAt key (d.storeAt key).reopen

theorem files_opened (d : Disk) (path : String) (key : PathKey) :
    (d.opened path key).files = (d.withFolder path).files :=
  files_setStoreAt ..

theorem Opens.hasFolders (h : d.Opens path key) :
    (d.withFolder path).files.HasFolders (Files.pathTexts (storeFolder path)) := by
  rw [files_withFolder]
  exact Files.hasFolders_makeFolders (eq_ok_of_isOk h.made)

theorem storeAt_opened (d : Disk) (path : String) (key : PathKey) :
    (d.opened path key).storeAt key = (d.storeAt key).reopen :=
  storeAt_setStoreAt_self ..

theorem Opens.storeIn_opened (h : d.Opens path key) : (d.opened path key).StoreIn path key :=
  h.place.of_files (files_opened ..)

theorem storeAt_opened_of_ne {k : PathKey} (h : k ≠ key) :
    (d.opened path key).storeAt k = d.storeAt k := by
  rw [opened, storeAt_setStoreAt_of_ne h, storeAt_withFolder]

/-- A store that can be opened is closed again, with the keys it had. -/
theorem Opens.kept (h : d.Opens path key) (hfiles : d'.files = (d.withFolder path).files)
    (hother : ∀ k, k ≠ key → d'.storeAt k = d.storeAt k)
    (hdata : (d'.storeAt key).database = (d.storeAt key).database)
    (hclosed : (d'.storeAt key).isOpen = false) : Kept d d' := by
  have hgrown : d.files.Grown d'.files := by
    rw [hfiles, files_withFolder]
    exact .mkdirAll ..
  refine ⟨hgrown, fun k => ?_, fun k => ?_⟩
  · by_cases hk : k = key
    · rw [hk, hdata]
    · rw [hother k hk]
  · by_cases hk : k = key
    · rw [hk, hclosed, h.closed]
    · rw [hother k hk]

theorem Opens.kept_close (h : d.Opens path key) :
    Kept d ((d.opened path key).setStoreAt key ((d.opened path key).storeAt key).close) := by
  refine h.kept ((files_setStoreAt ..).trans (files_opened ..)) (fun k hk => ?_) ?_ ?_
  · rw [storeAt_setStoreAt_of_ne hk, storeAt_opened_of_ne hk]
  · rw [storeAt_setStoreAt_self, storeAt_opened]
    rfl
  · rw [storeAt_setStoreAt_self]
    rfl

theorem openSource_file (hl : l.backend = .file) :
    d.openSource l = (d, (d.files.openArchive l.path).map fun e => ⟨e.source, none⟩) := by
  rw [openSource, hl]
  dsimp only
  cases d.files.openArchive l.path <;> rfl

theorem openSource_of_not (hl : l.backend = .generations) (h : ∀ key, ¬d.Opens l.path key) :
    d.openSource l = (d.withFolder l.path, .error .openStore) := by
  rw [openSource, hl]
  dsimp only
  rw [openStore_of_not h]

theorem newReader_opened (h : d.Opens path key) :
    ((d.opened path key).store path).newReader
      = (d.storeAt key).current.map fun id => ⟨(d.storeAt key).reopen.session, id⟩ := by
  have hopen : (d.storeAt key).reopen.isOpen = true := rfl
  have hcurrent : (d.storeAt key).reopen.current = (d.storeAt key).current :=
    Generations.current_of_database rfl
  rw [h.storeIn_opened.store_eq, storeAt_opened, Generations.newReader, if_pos hopen, hcurrent]
  cases (d.storeAt key).current <;> rfl

theorem openSource_of_error (hl : l.backend = .generations) (h : d.Opens l.path key)
    {e : ArchiveError} (he : (d.storeAt key).current = .error e) :
    d.openSource l = ((d.opened l.path key).closeStore l.path, .error e) := by
  have hreader := newReader_opened h
  rw [he, opened] at hreader
  rw [openSource, hl]
  dsimp only
  rw [openStore_of_opens h]
  dsimp only
  rw [hreader]
  rfl

theorem openSource_of_current (hl : l.backend = .generations) (h : d.Opens l.path key)
    {id : String} (hid : (d.storeAt key).current = .ok id) :
    d.openSource l = (d.opened l.path key, .ok ⟨(d.storeAt key).look id, some l.path⟩) := by
  have hreader := newReader_opened h
  have hlook : ((d.opened l.path key).store l.path).source ⟨(d.storeAt key).reopen.session, id⟩
      = (d.storeAt key).look id := by
    rw [h.storeIn_opened.store_eq, storeAt_opened, Generations.source_of_open rfl]
    exact Generations.look_of_database rfl id
  rw [hid, opened] at hreader
  rw [opened] at hlook
  rw [openSource, hl]
  dsimp only
  rw [openStore_of_opens h]
  dsimp only
  rw [hreader]
  dsimp only [Except.map]
  rw [hlook]
  rfl

/-- A save in a store is opened as before. -/
theorem Kept.openSource_generations (h : Kept d d') (hl : l.backend = .generations) :
    (d'.openSource l).2 = (d.openSource l).2 := by
  by_cases hopens : ∃ key, d.Opens l.path key
  · obtain ⟨key, hkey⟩ := hopens
    have hkey' := h.opens_iff.mpr hkey
    have hcurrent := Generations.current_of_database (h.database key)
    cases hid : (d.storeAt key).current with
    | error e =>
      rw [openSource_of_error hl hkey hid, openSource_of_error hl hkey' (hcurrent.trans hid)]
    | ok id =>
      rw [openSource_of_current hl hkey hid, openSource_of_current hl hkey' (hcurrent.trans hid),
        Generations.look_of_database (h.database key)]
  · have hnot := not_exists.mp hopens
    have hnot' : ∀ key, ¬d'.Opens l.path key := fun key hk => hnot key (h.opens_iff.mp hk)
    rw [openSource_of_not hl hnot, openSource_of_not hl hnot']

/-- A save in an archive file is opened as before, unless there was none. -/
theorem Kept.openSource_file (h : Kept d d') (hl : l.backend = .file)
    (hstat : d.files.stat l.path ≠ .error .noSuchFile) :
    (d'.openSource l).2 = (d.openSource l).2 := by
  rw [Disk.openSource_file hl, Disk.openSource_file hl, Files.openArchive, Files.openArchive,
    h.files.stat_eq hstat]

/-! ## Saves at places -/

theorem Opens.of_folders (hfolders : d.files.HasFolders (Files.pathTexts (storeFolder path)))
    (hplace : d.StoreIn path key) (hclosed : (d.storeAt key).isOpen = false) : d.Opens path key := by
  have hmade : d.files.mkdirAll (storeFolder path) = (d.files, .ok ()) := hfolders.makeFolders
  refine ⟨by rw [hmade]; rfl, hplace.of_files ?_, hclosed⟩
  rw [withFolder, hmade]

/-- A disk with a save of some entries at a place. If it is in a store, then this is open or not. -/
inductive HoldsAt (d : Disk) (l : Location) (isOpen : Bool) (e : Entries) : Prop where
  | file (hl : l.backend = .file) (hstat : d.files.stat l.path = .ok (.archive e))
  | generations {key : PathKey} {id : String} (hl : l.backend = .generations)
      (hfolders : d.files.HasFolders (Files.pathTexts (storeFolder l.path)))
      (hplace : d.StoreIn l.path key) (hopen : (d.storeAt key).isOpen = isOpen)
      (hmarks : (d.storeAt key).Marks id e)

namespace HoldsAt

variable {isOpen : Bool} {e : Entries}

theorem openSource (h : HoldsAt d l false e) (he : e.Sorted) :
    ∃ save, (d.openSource l).2 = .ok save ∧ save.source = e.source := by
  cases h with
  | file hl hstat =>
    rw [Disk.openSource_file hl, Files.openArchive, hstat]
    exact ⟨_, rfl, rfl⟩
  | generations hl hfolders hplace hclosed hmarks =>
    have hcurrent := Generations.current_of_mark hmarks.mark
    rw [openSource_of_current hl (.of_folders hfolders hplace hclosed) hcurrent]
    exact ⟨_, rfl, hmarks.look_eq he⟩

/-- The save stays if folders, archives, and stores that are open or closed alike do. -/
theorem transfer (h : HoldsAt d l isOpen e) (hkeeps : d.files.KeepsFolders d'.files)
    (harchives : ∀ {key e}, d.files.node? key = some (.archive e) →
      d'.files.node? key = some (.archive e))
    (hstores : ∀ key, (d.storeAt key).isOpen = isOpen → d'.storeAt key = d.storeAt key) :
    HoldsAt d' l isOpen e := by
  cases h with
  | file hl hstat => exact .file hl (hkeeps.stat_archive harchives hstat)
  | generations hl hfolders hplace hopen hmarks =>
    have hsame := hstores _ hopen
    exact .generations hl (hfolders.kept hkeeps) (hplace.kept hkeeps) (hsame ▸ hopen)
      (hsame ▸ hmarks)

end HoldsAt

/-- The save of a store that is put at its place. -/
theorem holdsAt_setStoreAt {s : Generations} {id : String} {e : Entries} (hmarks : s.Marks id e)
    (hl : l.backend = .generations)
    (hfolders : d.files.HasFolders (Files.pathTexts (storeFolder l.path)))
    (hplace : d.StoreIn l.path key) : HoldsAt (d.setStoreAt key s) l s.isOpen e := by
  have hstore := storeAt_setStoreAt_self d key s
  exact .generations hl hfolders (hplace.of_files (files_setStoreAt ..)) (by rw [hstore])
    (hstore.symm ▸ hmarks)

/-- A disk on which a save has been opened for reading: closing it again leaves all as it was. -/
inductive Reading (d : Disk) (save : OpenSave) (d' : Disk) : Prop where
  | file (hstore : save.store = none) (hd : d' = d)
  | store {path : String} {key : PathKey} (hstore : save.store = some path)
      (hplace : d'.StoreIn path key) (hopen : (d'.storeAt key).isOpen = true)
      (hkept : Kept d (d'.setStoreAt key (d'.storeAt key).close))

theorem kept_of_openSource_error {e : ArchiveError} (h : d.openSource l = (d', .error e)) :
    Kept d d' := by
  cases hl : l.backend with
  | file =>
    rw [Disk.openSource_file hl] at h
    obtain rfl : d = d' := congrArg Prod.fst h
    exact .refl d
  | generations =>
    by_cases hopens : ∃ key, d.Opens l.path key
    · obtain ⟨key, hkey⟩ := hopens
      cases hid : (d.storeAt key).current with
      | error e =>
        rw [openSource_of_error hl hkey hid, hkey.storeIn_opened.closeStore_eq] at h
        obtain rfl : _ = d' := congrArg Prod.fst h
        exact hkey.kept_close
      | ok id =>
        rw [openSource_of_current hl hkey hid] at h
        cases congrArg Prod.snd h
    · rw [openSource_of_not hl (not_exists.mp hopens)] at h
      obtain rfl : _ = d' := congrArg Prod.fst h
      exact .withFolder ..

theorem reading_of_openSource {save : OpenSave} (h : d.openSource l = (d', .ok save)) :
    Reading d save d' ∧ (d' = d ∨ ∃ key, d' = d.opened l.path key) := by
  cases hl : l.backend with
  | file =>
    rw [Disk.openSource_file hl] at h
    cases harchive : d.files.openArchive l.path with
    | error e =>
      rw [harchive] at h
      cases h
    | ok e =>
      rw [harchive] at h
      cases h
      exact ⟨.file rfl rfl, .inl rfl⟩
  | generations =>
    by_cases hopens : ∃ key, d.Opens l.path key
    · obtain ⟨key, hkey⟩ := hopens
      cases hid : (d.storeAt key).current with
      | error e =>
        rw [openSource_of_error hl hkey hid] at h
        cases congrArg Prod.snd h
      | ok id =>
        rw [openSource_of_current hl hkey hid] at h
        obtain ⟨rfl, hsave⟩ := Prod.mk.inj h
        cases hsave
        have hopen : ((d.opened l.path key).storeAt key).isOpen = true := by
          rw [storeAt_opened]
          rfl
        exact ⟨.store rfl hkey.storeIn_opened hopen hkey.kept_close, .inr ⟨key, rfl⟩⟩
    · rw [openSource_of_not hl (not_exists.mp hopens)] at h
      cases congrArg Prod.snd h

/-- The disk with the folders that opening a save makes: those of a store. -/
def withSource (d : Disk) (l : Location) : Disk :=
  if l.backend = .generations then d.withFolder l.path else d

theorem kept_withSource (d : Disk) (l : Location) : Kept d (d.withSource l) := by
  rw [withSource]
  split
  · exact .withFolder ..
  · exact .refl d

theorem files_closeStore (d : Disk) (path : String) : (d.closeStore path).files = d.files := rfl

theorem files_openSource (d : Disk) (l : Location) :
    (d.openSource l).1.files = (d.withSource l).files := by
  cases hl : l.backend with
  | file => rw [Disk.openSource_file hl, withSource, if_neg (by simp [hl])]
  | generations =>
    rw [withSource, if_pos hl]
    by_cases hopens : ∃ key, d.Opens l.path key
    · obtain ⟨key, hkey⟩ := hopens
      cases hid : (d.storeAt key).current with
      | error e => rw [openSource_of_error hl hkey hid, files_closeStore, files_opened]
      | ok id => rw [openSource_of_current hl hkey hid, files_opened]
    · rw [openSource_of_not hl (not_exists.mp hopens)]

theorem files_closeSource (d : Disk) (save : OpenSave) : (d.closeSource save).files = d.files := by
  rw [closeSource]
  split
  · exact files_closeStore ..
  · rfl

/-- After reading, the save is closed, and what happened in between is all that has changed. -/
theorem Reading.kept_closeSource {save : OpenSave} {d₁ d₂ : Disk} (h : Reading d save d₁)
    (hkept : Kept d₁ d₂) : Kept d (d₂.closeSource save) := by
  cases h with
  | file hstore hd =>
    rw [closeSource, hstore]
    exact hd ▸ hkept
  | @store path key hstore hplace hopen hclosed =>
    rw [closeSource, hstore]
    dsimp only
    rw [(hplace.kept hkept.files.keepsFolders).closeStore_eq]
    exact hclosed.trans (hkept.close key)

end Opening

end Disk

end BlockWorld.Save
