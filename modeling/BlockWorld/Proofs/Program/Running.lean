import BlockWorld.Program.Server
import BlockWorld.Proofs.Log.Journal
import BlockWorld.Proofs.Program.Persistence
import BlockWorld.Proofs.Save.Disk
/-!
The disk under a run of the server. Messages change nothing but the logs of the run (`Running.Wrote`).
Opening and closing the place of the saves adds at most folders (`Running.Spares`). A save, if it succeeds,
is at its place afterwards and stays there until the next one, also when the store is closed and opened
again (`Ready.saveWorld`, `closeStorage_holdsAt`, `openStorage_of_holdsAt`).

How the proof goes. Three relations between a run before and after something say more and more:

* `Save.Disk.Journaled`: on the disk nothing has changed but logs, folders that were made, and stores being
  open or not.
* `Running.Spares`: the same of a run, which may have opened or closed its storage.
* `Running.Wrote`: the storage stays as it is as well. Every message is a step of this kind
  (`Running.Wrote.tell`).

All are transitive, and what is known of a save at its place goes through each of them
(`Running.Wrote.holdsAt`, `openStorage_of_holdsAt`, `closeStorage_holdsAt`). The saves themselves are counted:
`Ready` says how many can still be made, for a store because the next identifiers it will give are new
(`NewIds`). One attempt uses up one of them whether it succeeds or not (`Ready.run`).
-/
namespace BlockWorld

open Save

/-! ## Disks with logs -/

/-- A disk on which nothing has changed but the logs of some paths. Folders may have been made, and stores
opened and closed. -/
structure Save.Disk.Journaled (paths : String → Prop) (d d' : Disk) : Prop where
  files : d.files.Journaled paths d'.files
  database : ∀ key, (d'.storeAt key).database = (d.storeAt key).database

namespace Save.Disk.Journaled

variable {paths : String → Prop} {d d' : Disk}

theorem trans {d₁ d₂ d₃ : Disk} (h : Journaled paths d₁ d₂) (h' : Journaled paths d₂ d₃) :
    Journaled paths d₁ d₃ :=
  ⟨h.files.trans h'.files, fun key => (h'.database key).trans (h.database key)⟩

theorem withFolder (paths : String → Prop) (d : Disk) (path : String) :
    Journaled paths d (d.withFolder path) :=
  ⟨.of_grown paths (Kept.withFolder d path).files, (Kept.withFolder d path).database⟩

theorem setStoreAt (paths : String → Prop) (d : Disk) {key : PathKey} {s : Generations}
    (h : s.database = (d.storeAt key).database) : Journaled paths d (d.setStoreAt key s) := by
  refine ⟨.refl paths _, fun k => ?_⟩
  rw [storeAt_setStoreAt]
  split
  · rename_i hk
    rw [hk, h]
  · rfl

theorem openStore (paths : String → Prop) (d : Disk) (path : String) :
    Journaled paths d (d.openStore path).1 := by
  by_cases hopens : ∃ key, d.Opens path key
  · obtain ⟨key, hkey⟩ := hopens
    rw [openStore_of_opens hkey]
    refine (withFolder paths d path).trans (setStoreAt paths _ ?_)
    rw [storeAt_withFolder]
    rfl
  · rw [openStore_of_not (not_exists.mp hopens)]
    exact withFolder paths d path

theorem closeStore (paths : String → Prop) (d : Disk) (path : String) :
    Journaled paths d (d.closeStore path) := by
  rw [Disk.closeStore, setStore]
  exact setStoreAt paths d rfl

end Save.Disk.Journaled

namespace Program.Server

open Disk Persistence

variable {l : Location} {r r' : Running}

theorem disk_setDisk (r : Running) (d : Disk) : (r.setDisk d).disk = d := rfl

/-! ## Messages -/

/-- The logs of a run. -/
def Running.IsLog (r : Running) : String → Prop := Log.IsJournal r.log.options.dir r.now

/-- A run whose loggers write to its own logs only. -/
def Running.Settled (r : Running) : Prop := r.log.Settled r.now

/-- A run that has written messages. -/
structure Running.Wrote (r r' : Running) : Prop where
  log : r.log.Wrote r.now r'.log
  stores : r'.stores = r.stores
  now : r'.now = r.now

namespace Running.Wrote

theorem settled (h : Wrote r r') : r'.Settled := by
  rw [Settled, h.now]
  exact h.log.settled

theorem refl (h : r.Settled) : Wrote r r := ⟨.refl h, rfl, rfl⟩

theorem trans {r₁ r₂ r₃ : Running} (h : Wrote r₁ r₂) (h' : Wrote r₂ r₃) : Wrote r₁ r₃ := by
  have hlog := h'.log
  rw [h.now] at hlog
  exact ⟨h.log.trans hlog, h'.stores.trans h.stores, h'.now.trans h.now⟩

theorem say (h : r.Settled) (level : Log.Level) (text : String) : Wrote r (r.say level text) :=
  ⟨.writeMain h _, rfl, rfl⟩

theorem prepare (h : r.Settled) (component : String)
    (hname : component ∈ Log.logNames := by decide) : Wrote r (r.prepare component) :=
  ⟨(Log.Manager.Wrote.logger hname h).1, rfl, rfl⟩

theorem tell (h : r.Settled) (component : String) (messages : List Log.Message)
    (hname : component ∈ Log.logNames := by decide) : Wrote r (r.tell component messages) := by
  rw [Running.tell]
  induction messages generalizing r with
  | nil => exact .refl h
  | cons m rest ih =>
    have hfirst : Wrote r { r with
        log := (r.log.write r.now component m).1
        console := (r.log.write r.now component m).2.reverse ++ r.console } :=
      ⟨.write hname h m, rfl, rfl⟩
    exact hfirst.trans (ih hfirst.settled)

theorem tellWorld (h : r.Settled) (w : World) : Wrote r (r.tellWorld w).1 := tell h "world" _

theorem journaled (h : Wrote r r') : r.disk.Journaled r.IsLog r'.disk := by
  refine ⟨h.log.files, fun key => ?_⟩
  rw [storeAt, storeAt, show r'.disk.stores = r.disk.stores from h.stores]

theorem storeAt_eq (h : Wrote r r') (key : PathKey) : r'.disk.storeAt key = r.disk.storeAt key := by
  rw [storeAt, storeAt, show r'.disk.stores = r.disk.stores from h.stores]

/-- Without a folder for logs the disk stays as it is. -/
theorem disk_eq (h : Wrote r r') (hdir : r.log.options.dir = "") : r'.disk = r.disk := by
  rw [disk, disk, h.log.unlogged hdir, h.stores]

theorem keepsFolders (h : Wrote r r') : r.disk.files.KeepsFolders r'.disk.files :=
  h.log.files.keepsFolders

theorem holdsAt (h : Wrote r r') {isOpen : Bool} {e : Entries} (hd : HoldsAt r.disk l isOpen e) :
    HoldsAt r'.disk l isOpen e :=
  hd.transfer h.keepsFolders h.log.files.archive fun key _ => h.storeAt_eq key

end Running.Wrote

/-! ## Opening and closing -/

/-- A run that has changed nothing but its logs. -/
structure Running.Spares (r r' : Running) : Prop where
  options : r'.log.options = r.log.options
  now : r'.now = r.now
  settled : r'.Settled
  disk : r.disk.Journaled r.IsLog r'.disk

namespace Running.Spares

theorem trans {r₁ r₂ r₃ : Running} (h : Spares r₁ r₂) (h' : Spares r₂ r₃) : Spares r₁ r₃ := by
  have hdisk := h'.disk
  rw [IsLog, h.options, h.now] at hdisk
  exact ⟨h'.options.trans h.options, h'.now.trans h.now, h'.settled, h.disk.trans hdisk⟩

theorem of_wrote (h : Wrote r r') : Spares r r' := ⟨h.log.options, h.now, h.settled, h.journaled⟩

theorem setDisk (hr : r.Settled) {d : Disk} (h : r.disk.Journaled r.IsLog d) : Spares r (r.setDisk d) :=
  ⟨rfl, rfl, ⟨hr.main, hr.loggers⟩, h⟩

theorem openStorage (hr : r.Settled) (l : Location) : Spares r (openStorage l r).1 := by
  rw [Server.openStorage]
  split
  · exact of_wrote (.refl hr)
  · have hopened := setDisk hr (.openStore r.IsLog r.disk l.path)
    generalize r.disk.openStore l.path = result at hopened
    obtain ⟨d, result⟩ := result
    cases result with
    | error e => exact hopened
    | ok u => exact hopened.trans (of_wrote (.prepare hopened.settled "storage"))

theorem closeStorage (hr : r.Settled) (l : Location) : Spares r (closeStorage l r) := by
  rw [Server.closeStorage]
  split
  · exact of_wrote (.refl hr)
  · exact setDisk hr (.closeStore r.IsLog r.disk l.path)

end Running.Spares

theorem opens_of_openStorage (hl : l.backend = .generations) (h : (openStorage l r).2 = .ok ()) :
    ∃ key, r.disk.Opens l.path key := by
  refine Classical.byContradiction fun hnot => ?_
  rw [openStorage, hl] at h
  dsimp only at h
  rw [openStore_of_not (not_exists.mp hnot)] at h
  cases h

theorem openStorage_of_opens {key : PathKey} (hl : l.backend = .generations)
    (h : r.disk.Opens l.path key) :
    openStorage l r = ((r.setDisk (r.disk.opened l.path key)).prepare "storage", .ok ()) := by
  rw [openStorage, hl]
  dsimp only
  rw [openStore_of_opens h]
  rfl

theorem settled_setDisk (h : r.Settled) (d : Disk) : (r.setDisk d).Settled := ⟨h.main, h.loggers⟩

/-- The storage of a save that is there can be opened, and the save is still there. -/
theorem openStorage_of_holdsAt (hr : r.Settled) {e : Entries} (h : HoldsAt r.disk l false e) :
    (openStorage l r).2 = .ok () ∧ HoldsAt (openStorage l r).1.disk l true e := by
  cases h with
  | file hl hstat =>
    rw [openStorage, hl]
    exact ⟨rfl, .file hl hstat⟩
  | @generations key id hl hfolders hplace hclosed hmarks =>
    have hopens : r.disk.Opens l.path key := .of_folders hfolders hplace hclosed
    rw [openStorage_of_opens hl hopens]
    refine ⟨rfl, (Running.Wrote.prepare (settled_setDisk hr _) "storage").holdsAt ?_⟩
    have hmarks' : (r.disk.storeAt key).reopen.Marks id e := hmarks.of_database rfl
    rw [disk_setDisk, opened]
    exact holdsAt_setStoreAt hmarks' hl hopens.hasFolders hopens.place

theorem closeStorage_holdsAt {e : Entries} (h : HoldsAt r.disk l true e) :
    HoldsAt (closeStorage l r).disk l false e := by
  cases h with
  | file hl hstat =>
    rw [closeStorage, hl]
    exact .file hl hstat
  | @generations key id hl hfolders hplace hopen hmarks =>
    rw [closeStorage, hl]
    have hmarks' : (r.disk.storeAt key).close.Marks id e := hmarks.of_database rfl
    dsimp only
    rw [disk_setDisk, hplace.closeStore_eq]
    exact holdsAt_setStoreAt hmarks' hl hfolders hplace

/-- The save is found. -/
theorem findSave_of_holdsAt {d : Disk} {e : Entries} (h : HoldsAt d l true e) (he : e.Sorted) :
    findSave l d = .ok (some e.source) := by
  cases h with
  | file hl hstat =>
    rw [findSave, hl]
    dsimp only
    rw [Files.openArchive, hstat]
  | generations hl _ hplace hopen hmarks =>
    rw [findSave, hl]
    dsimp only
    rw [hplace.store_eq, Generations.newReader, if_pos hopen, Generations.current_of_mark hmarks.mark]
    dsimp only
    rw [hmarks.source_eq he hopen]

/-! ## Saving -/

/-- The identifiers that a store gives to generations, from a number on. -/
def idsFrom (first n : Nat) : List String := (List.range n).map fun i => Text.Uuid.ofNat (first + i)

/-- A store for which the next identifiers are new ones. -/
structure NewIds (s : Generations) (n : Nat) : Prop where
  fresh : s.Fresh (idsFrom s.started n)
  distinct : (idsFrom s.started n).Nodup

theorem idsFrom_succ (first n : Nat) :
    idsFrom first (n + 1) = Text.Uuid.ofNat first :: idsFrom (first + 1) n := by
  rw [idsFrom, List.range_succ_eq_map, List.map_cons, List.map_map, idsFrom]
  refine congrArg (List.cons _) (List.map_congr_left fun i _ => ?_)
  rw [Function.comp, Nat.succ_eq_one_add, Nat.add_assoc]

theorem isPlain_of_mem_idsFrom {first n : Nat} : ∀ id ∈ idsFrom first n, Text.Uuid.IsPlain id := by
  intro id hid
  obtain ⟨i, -, rfl⟩ := List.mem_map.mp hid
  exact Text.Uuid.isPlain_ofNat _

section NewIds

variable {s : Generations} {n : Nat}

/-- One identifier may be left unused. -/
theorem NewIds.pred (h : NewIds s (n + 1)) : NewIds s n := by
  have hinit : idsFrom s.started (n + 1) = idsFrom s.started n ++ [Text.Uuid.ofNat (s.started + n)] := by
    rw [idsFrom, List.range_succ, List.map_append, idsFrom]
    rfl
  obtain ⟨hfresh, hdistinct⟩ := h
  rw [hinit] at hfresh hdistinct
  exact ⟨hfresh.of_subset (List.subset_append_left ..), hdistinct.sublist (List.sublist_append_left ..)⟩

/-- A generation that is given up leaves no trace. -/
theorem NewIds.drop (h : NewIds s (n + 1)) :
    (begun s).drop s.nextId = begun s ∧ NewIds (begun s) n := by
  obtain ⟨hfresh, hdistinct⟩ := h
  rw [idsFrom_succ] at hfresh hdistinct
  have hbegun : (begun s).Fresh (s.nextId :: idsFrom (s.started + 1) n) := hfresh.of_database rfl
  exact ⟨hbegun.drop, hbegun.of_subset (List.subset_cons_self ..), (List.nodup_cons.mp hdistinct).2⟩

theorem NewIds.publish (h : NewIds s (n + 1)) {w : GenerationWriter} (hw : w.generation = s.nextId)
    {e : Entries} (hbatch : Batch w.batch w.generation e.pairs) :
    NewIds ((begun s).publish w).1 n ∧ ((begun s).publish w).1.Marks s.nextId e := by
  obtain ⟨hfresh, hdistinct⟩ := h
  have hplain : ∀ id ∈ idsFrom s.started (n + 1), Text.Uuid.IsPlain id := isPlain_of_mem_idsFrom
  rw [idsFrom_succ, show Text.Uuid.ofNat s.started = w.generation from hw.symm] at hfresh hdistinct hplain
  have hbegun : (begun s).Fresh (w.generation :: idsFrom (s.started + 1) n) := hfresh.of_database rfl
  obtain ⟨hnew, hother⟩ := List.nodup_cons.mp hdistinct
  obtain ⟨hafter, hmarks⟩ := hbegun.publish hplain hnew hbatch
  have hstarted : ((begun s).publish w).1.started = s.started + 1 := Generations.publish_started ..
  rw [← hw]
  exact ⟨⟨hstarted ▸ hafter, hstarted ▸ hother⟩, hmarks⟩

end NewIds

/-- A place at which so many saves can still be made. -/
inductive Ready (l : Location) (d : Disk) (n : Nat) : Prop where
  | file (hl : l.backend = .file)
  | generations {key : PathKey} (hl : l.backend = .generations)
      (hfolders : d.files.HasFolders (Files.pathTexts (storeFolder l.path)))
      (hplace : d.StoreIn l.path key) (hopen : (d.storeAt key).isOpen = true)
      (hnew : NewIds (d.storeAt key) n)

namespace Ready

variable {d d' : Disk} {n : Nat}

theorem pred (h : Ready l d (n + 1)) : Ready l d n := by
  cases h with
  | file hl => exact .file hl
  | generations hl hfolders hplace hopen hnew => exact .generations hl hfolders hplace hopen hnew.pred

theorem kept (h : Ready l d n) (hkeeps : d.files.KeepsFolders d'.files)
    (hstores : ∀ key, d'.storeAt key = d.storeAt key) : Ready l d' n := by
  cases h with
  | file hl => exact .file hl
  | @generations key hl hfolders hplace hopen hnew =>
    have hsame := hstores key
    exact .generations hl (hfolders.kept hkeeps) (hplace.kept hkeeps) (hsame ▸ hopen) (hsame ▸ hnew)

theorem wrote (h : Ready l r.disk n) (hr : r.Wrote r') : Ready l r'.disk n :=
  h.kept hr.keepsFolders hr.storeAt_eq

theorem setStoreAt {key : PathKey} (hl : l.backend = .generations)
    (hfolders : d.files.HasFolders (Files.pathTexts (storeFolder l.path)))
    (hplace : d.StoreIn l.path key) {s : Generations} (hopen : s.isOpen = true) (hnew : NewIds s n) :
    Ready l (d.setStoreAt key s) n := by
  have hstore := storeAt_setStoreAt_self d key s
  exact .generations hl hfolders (hplace.of_files (files_setStoreAt ..)) (hstore.symm ▸ hopen)
    (hstore.symm ▸ hnew)

theorem isOpen (h : Ready l d n) (hl : l.backend = .generations) : (d.store l.path).isOpen = true := by
  cases h with
  | file hfile =>
    rw [hl] at hfile
    cases hfile
  | generations _ _ hplace hopen _ =>
    rw [hplace.store_eq]
    exact hopen

/-- An attempt to save leaves the place ready for one less; if it succeeds, its entries are there. -/
theorem run (h : Ready l d (n + 1)) {a : Attempt} (hid : a.id = nextId l d) :
    Ready l (a.run l d).disk n
      ∧ ((a.run l d).result.isOk = true →
        a.inMemory.2.1 = .ok () ∧ HoldsAt (a.run l d).disk l true a.entries) := by
  cases h with
  | file hl =>
    refine ⟨.file hl, fun hok => ?_⟩
    obtain ⟨-, ⟨hfailed, -⟩ | ⟨-, hmem, hstate⟩⟩ := run_file hl a d.files d
    · rw [hfailed] at hok
      cases hok
    · cases hstate with
      | saved hstat _ => exact ⟨hmem, .file hl hstat⟩
  | @generations key hl hfolders hplace hopen hnew =>
    have hstore := hplace.store_eq
    have hends := run_generations_ends hl a (hstore ▸ hopen)
    rw [nextId, hstore] at hid
    dsimp only at hends
    rw [hstore, hplace.setStore_eq, hid] at hends
    have hplace' := hplace.of_files (files_setStoreAt d key (begun (d.storeAt key)))
    have hfolders' : (d.setStoreAt key (begun (d.storeAt key))).files.HasFolders _ := hfolders
    obtain ⟨hresult, hdisk⟩ | ⟨batch, hresult, hmem, hbatch, -, hdisk⟩ := hends
    · obtain ⟨hdrop, hnext⟩ := hnew.drop
      rw [hplace'.setStore_eq, hdrop] at hdisk
      rw [hdisk, hresult]
      have hopen' : (begun (d.storeAt key)).isOpen = true := hopen
      refine ⟨.setStoreAt hl hfolders' hplace' hopen' hnext, fun hok => ?_⟩
      cases hok
    · obtain ⟨out, hout⟩ : ∃ out : GenerationWriter,
          out = ⟨(d.storeAt key).session, (d.storeAt key).nextId, batch, false⟩ := ⟨_, rfl⟩
      rw [hplace'.setStore_eq, ← hout] at hdisk
      obtain ⟨hnext, hmarks⟩ := hnew.publish (w := out) (by rw [hout]) (by rw [hout]; exact hbatch)
      have hopen' := (Generations.publish_isOpen (begun (d.storeAt key)) out).trans hopen
      rw [hdisk]
      refine ⟨.setStoreAt hl hfolders' hplace' hopen' hnext, fun _ => ⟨hmem, ?_⟩⟩
      exact hopen' ▸ holdsAt_setStoreAt hmarks hl hfolders' hplace'

end Ready

theorem ready_openStorage (hr : r.Settled) {n : Nat} (h : (openStorage l r).2 = .ok ())
    (hnew : l.backend = .generations → NewIds ((openStorage l r).1.disk.store l.path) n) :
    Ready l (openStorage l r).1.disk n := by
  cases hl : l.backend with
  | file => exact .file hl
  | generations =>
    obtain ⟨key, hkey⟩ := opens_of_openStorage hl h
    have hids := hnew hl
    rw [openStorage_of_opens hl hkey] at hids ⊢
    have hwrote := Running.Wrote.prepare (settled_setDisk hr (r.disk.opened l.path key)) "storage"
    have hkeeps := hwrote.keepsFolders
    have hplace := hkey.storeIn_opened
    rw [disk_setDisk] at hkeeps
    rw [(hplace.kept hkeeps).store_eq, hwrote.storeAt_eq, disk_setDisk] at hids
    refine Ready.wrote ?_ hwrote
    have hfolders := hkey.hasFolders
    rw [← files_opened r.disk l.path key] at hfolders
    have hopen : ((r.disk.opened l.path key).storeAt key).isOpen = true := by
      rw [storeAt_opened]
      rfl
    rw [disk_setDisk]
    exact .generations hl hfolders hplace hopen hids

/-- An attempt of the server itself. -/
def attempt (l : Location) (w : World) (r : Running) : Attempt :=
  ⟨w, r.now, nextId l r.disk, fun _ _ _ => none⟩

theorem inMemory_attempt (l : Location) (w : World) (r : Running) :
    (attempt l w r).inMemory = w.saveTo r.now MemoryArchive.sink .empty := rfl

theorem result_saveWorld (l : Location) (w : World) (r : Running) :
    (saveWorld l w r).2.2 = ((attempt l w r).run l r.disk).result := rfl

theorem wrote_saveWorld (hr : r.Settled) (l : Location) (w : World) :
    (r.setDisk ((attempt l w r).run l r.disk).disk).Wrote (saveWorld l w r).1 := by
  have htold := Running.Wrote.tellWorld
    (settled_setDisk hr ((attempt l w r).run l r.disk).disk) ((attempt l w r).run l r.disk).world
  exact htold.trans (.tell htold.settled "storage" _)

theorem Ready.saveWorld {n : Nat} (h : Ready l r.disk (n + 1)) (hr : r.Settled) (w : World) :
    Ready l (saveWorld l w r).1.disk n
      ∧ ((Server.saveWorld l w r).2.2 = .ok () →
        (w.saveTo r.now MemoryArchive.sink .empty).2.1 = .ok ()
          ∧ HoldsAt (Server.saveWorld l w r).1.disk l true
            (w.saveTo r.now MemoryArchive.sink .empty).1.entries) := by
  obtain ⟨hready, hsaved⟩ := h.run (a := attempt l w r) rfl
  rw [Attempt.entries, inMemory_attempt] at hsaved
  have hwrote := wrote_saveWorld hr l w
  refine ⟨Ready.wrote (r := r.setDisk _) hready hwrote, fun hok => ?_⟩
  rw [result_saveWorld] at hok
  obtain ⟨hmem, hholds⟩ := hsaved (by rw [hok]; rfl)
  exact ⟨hmem, hwrote.holdsAt hholds⟩

end Program.Server

end BlockWorld
