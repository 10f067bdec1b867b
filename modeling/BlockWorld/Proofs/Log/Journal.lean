import BlockWorld.Log.Manager
import BlockWorld.Proofs.Save.Folders
/-!
What logging does to a tree of files. Loggers make the folder of their files and add lines at the end of
these files, and nothing else in the tree changes (`Files.Journaled`). So whatever else a program keeps in
the same tree is safe from its logs: folders and archives stay, and so does every other file that is not a
log itself (`Files.Journaled.stat`).

How the proof goes. `Files.Journaled` is kept by each of the two things that loggers do, making folders
(`Files.Journaled.of_grown`) and writing at the end of a file (`Files.Journaled.appendFile`), and is
transitive. What a path leads to afterwards follows from what becomes of the way there
(`Files.Journaled.walk`), by induction on its names: every folder on the way is still there, and only the last
name may be a file that has grown. The second half lifts this to loggers: a `Settled` manager has loggers for
the paths of its own time only, and everything it can be told to do keeps it so and journals the tree
(`Wrote`).
-/
namespace BlockWorld.Save.Files

variable {paths : String → Prop} {fs fs' : Files} {key : PathKey} {path : String}

/-! ## Files that grow at their ends -/

/-- A plain file that one of some paths leads to. -/
def FileAt (paths : String → Prop) (fs : Files) (key : PathKey) : Prop :=
  ∃ path data, paths path ∧ fs.find path = .ok (key, some (.file data))

/-- A tree to which folders have been added, and bytes at the ends of files that some paths lead to. These
files may be new. -/
structure Journaled (paths : String → Prop) (fs fs' : Files) : Prop where
  here : fs'.here = fs.here
  kept : ∀ {key node}, fs.node? key = some node → fs'.node? key = some node
    ∨ ∃ data more, node = .file data ∧ fs'.node? key = some (.file (data ++ more))
      ∧ fs'.FileAt paths key
  added : ∀ {key}, fs.node? key = none →
    fs'.node? key = none ∨ fs'.node? key = some .folder ∨ fs'.FileAt paths key

namespace Journaled

theorem keepsFolders (h : Journaled paths fs fs') : KeepsFolders fs fs' := by
  refine ⟨h.here, fun {key} hkey => ?_⟩
  rcases h.kept hkey with hkept | ⟨data, more, hfile, -⟩
  · exact hkept
  · cases hfile

theorem archive (h : Journaled paths fs fs') {e : Entries}
    (hkey : fs.node? key = some (.archive e)) : fs'.node? key = some (.archive e) := by
  rcases h.kept hkey with hkept | ⟨data, more, hfile, -⟩
  · exact hkept
  · cases hfile

/-- A plain file stays one. -/
theorem file (h : Journaled paths fs fs') {data : ByteArray} (hkey : fs.node? key = some (.file data)) :
    ∃ more, fs'.node? key = some (.file (data ++ more)) := by
  rcases h.kept hkey with hkept | ⟨old, more, hfile, hgrown, -⟩
  · exact ⟨.empty, by rw [ByteArray.append_empty, hkept]⟩
  · cases hfile
    exact ⟨more, hgrown⟩

theorem fileAt (h : Journaled paths fs fs') (hkey : fs.FileAt paths key) : fs'.FileAt paths key := by
  obtain ⟨path, data, hpath, hfind⟩ := hkey
  obtain ⟨more, hnode⟩ := h.file (node?_of_find hfind (by simp))
  exact ⟨path, _, hpath, h.keepsFolders.find_place hfind (by simp) (by simp) hnode (by simp)⟩

theorem refl (paths : String → Prop) (fs : Files) : Journaled paths fs fs := ⟨rfl, .inl, .inl⟩

theorem of_grown (paths : String → Prop) (h : Grown fs fs') : Journaled paths fs fs' := by
  refine ⟨h.here, fun hkey => .inl (h.kept hkey), fun hkey => ?_⟩
  rcases h.added hkey with hnone | hfolder
  · exact .inl hnone
  · exact .inr (.inl hfolder)

theorem trans {fs₁ fs₂ fs₃ : Files} (h : Journaled paths fs₁ fs₂) (h' : Journaled paths fs₂ fs₃) :
    Journaled paths fs₁ fs₃ := by
  refine ⟨h'.here.trans h.here, fun {key node} hkey => ?_, fun {key} hkey => ?_⟩
  · rcases h.kept hkey with hkept | ⟨data, more, rfl, hgrown, hlog⟩
    · exact h'.kept hkept
    · obtain ⟨later, hlater⟩ := h'.file hgrown
      refine .inr ⟨data, more ++ later, rfl, ?_, h'.fileAt hlog⟩
      rw [hlater, ByteArray.append_assoc]
  · rcases h.added hkey with hnone | hfolder | hlog
    · exact h'.added hnone
    · exact .inr (.inl (h'.keepsFolders.folder hfolder))
    · exact .inr (.inr (h'.fileAt hlog))

/-- Bytes are written where a path leads, behind those of the file there if there is one. -/
theorem put (hpath : paths path) {found : Option Node} {data : ByteArray}
    (hfind : fs.find path = .ok (key, found))
    (hfound : (∃ old more, found = some (.file old) ∧ data = old ++ more)
      ∨ found = none ∧ path.endsWith "/" = false) :
    Journaled paths fs (fs.put key (.file data)) := by
  have hfolder : found ≠ some .folder := by
    rcases hfound with ⟨old, more, rfl, -⟩ | ⟨rfl, -⟩ <;> simp
  have hnode : fs.node? key = found := node?_of_find hfind hfolder
  have hkey : key ≠ [] := ne_nil_of_not_folder (hnode ▸ hfolder)
  have hput : ∀ k, (fs.put key (.file data)).node? k = if k = key then some (.file data) else fs.node? k :=
    node?_put hkey (.file data)
  have hself : (fs.put key (.file data)).node? key = some (.file data) := by rw [hput, if_pos rfl]
  have hlog : (fs.put key (.file data)).FileAt paths key := by
    refine ⟨path, data, hpath, ?_⟩
    refine (KeepsFolders.put (hnode ▸ hfolder) _).find_place hfind hfolder (fun hnone => ?_) hself (by simp)
    rcases hfound with ⟨old, more, rfl, -⟩ | ⟨-, hend⟩
    · cases hnone
    · exact hend
  refine ⟨rfl, fun {k node} hk => ?_, fun {k} hk => ?_⟩
  · by_cases he : k = key
    · subst he
      rcases hfound with ⟨old, more, rfl, rfl⟩ | ⟨rfl, -⟩
      · obtain rfl : node = .file old := Option.some.inj (hk.symm.trans hnode)
        exact .inr ⟨old, more, rfl, hself, hlog⟩
      · rw [hk] at hnode
        cases hnode
    · exact .inl (by rw [hput, if_neg he, hk])
  · by_cases he : k = key
    · exact .inr (.inr (he ▸ hlog))
    · exact .inl (by rw [hput, if_neg he, hk])

theorem appendFile (hpath : paths path) {data : ByteArray} (h : fs.appendFile path data = .ok fs') :
    Journaled paths fs fs' := by
  rw [Files.appendFile, Files.stat] at h
  cases hfind : fs.find path with
  | error p =>
    rw [hfind, writeFile, hfind] at h
    cases h
  | ok found =>
    obtain ⟨key, found⟩ := found
    rw [hfind] at h
    cases found with
    | none =>
      dsimp only at h
      rw [writeFile, hfind] at h
      dsimp only at h
      split at h
      · cases h
      · rename_i hend
        cases h
        exact .put hpath hfind (.inr ⟨rfl, Bool.eq_false_iff.mpr hend⟩)
    | some node =>
      cases node with
      | folder =>
        dsimp only at h
        rw [writeFile, hfind] at h
        cases h
      | archive e =>
        cases h
        exact .refl paths fs
      | file old =>
        dsimp only at h
        rw [writeFile, hfind] at h
        cases h
        exact .put hpath hfind (.inl ⟨old, data, rfl, rfl⟩)

/-! ## Following paths -/

/-- What becomes of a way: it is as before, it ended at something missing, or it ends at a file that has
grown. -/
theorem walk (h : Journaled paths fs fs') (place : PathKey) (names : List String) :
    fs'.walk place names = fs.walk place names ∨ fs.walk place names = .error .noSuchFile
      ∨ (∃ key, fs.walk place names = .ok (key, none))
      ∨ ∃ key data more, fs.walk place names = .ok (key, some (.file data))
        ∧ fs'.walk place names = .ok (key, some (.file (data ++ more))) ∧ fs'.FileAt paths key := by
  induction names generalizing place with
  | nil => exact .inl rfl
  | cons name rest ih =>
    by_cases hstay : name = "" ∨ name = "."
    · rw [Files.walk, Files.walk, if_pos hstay, if_pos hstay]
      exact ih place
    by_cases hup : name = ".."
    · rw [Files.walk, Files.walk, if_neg hstay, if_neg hstay, if_pos hup, if_pos hup]
      exact ih place.dropLast
    by_cases hsize : nameLimit < name.utf8ByteSize
    · rw [Files.walk, Files.walk, if_neg hstay, if_neg hstay, if_neg hup, if_neg hup, if_pos hsize,
        if_pos hsize]
      exact .inl rfl
    have hname : ProperName name := ⟨hstay, hup, hsize⟩
    cases hnode : fs.node? (place ++ [name]) with
    | none =>
      rw [walk_of_none hname hnode]
      split
      · exact .inr (.inr (.inl ⟨_, rfl⟩))
      · exact .inr (.inl rfl)
    | some node =>
      by_cases hfolder : node = .folder
      · subst hfolder
        rw [walk_of_folder hname hnode, walk_of_folder hname (h.keepsFolders.folder hnode)]
        exact ih _
      · rw [walk_of_file hname hnode hfolder]
        rcases h.kept hnode with hkept | ⟨data, more, rfl, hgrown, hlog⟩
        · rw [walk_of_file hname hkept hfolder]
          exact .inl rfl
        · rw [walk_of_file hname hgrown (by simp)]
          split
          · exact .inr (.inr (.inr ⟨_, data, more, rfl, rfl, hlog⟩))
          · exact .inl rfl

/-- What a path leads to is the same, if there was anything, unless it is a log that has grown. -/
theorem stat (h : Journaled paths fs fs') (hstat : fs.stat path ≠ .error .noSuchFile) :
    fs'.stat path = fs.stat path
      ∨ ∃ data more log, fs.stat path = .ok (.file data)
        ∧ fs'.stat path = .ok (.file (data ++ more)) ∧ paths log ∧ fs'.find log = fs'.find path := by
  by_cases hpath : Followable path
  · have hfind' : fs'.find path = fs'.walk (fs.startOf path) (namesOf path) := by
      rw [find_of_followable hpath, h.keepsFolders.startOf]
    rw [Files.stat, find_of_followable hpath] at hstat
    rw [Files.stat, Files.stat, hfind', find_of_followable hpath]
    rcases h.walk (fs.startOf path) (namesOf path) with hsame | hnone | ⟨key, hfree⟩ | hgrown
    · exact .inl (by rw [hsame])
    · rw [hnone] at hstat
      exact absurd rfl hstat
    · rw [hfree] at hstat
      exact absurd rfl hstat
    · obtain ⟨key, data, more, hold, hnew, log, bytes, hlog, hlogged⟩ := hgrown
      rw [hold, hnew]
      refine .inr ⟨data, more, log, rfl, rfl, hlog, ?_⟩
      have hnode := (node?_of_find hlogged (by simp)).symm.trans ((leads_of_walk hnew).node?_eq (by simp))
      rw [hlogged, hnode]
  · rw [Files.stat, Files.stat, find_of_not_followable hpath fs fs']
    exact .inl rfl

end Journaled

end BlockWorld.Save.Files

namespace BlockWorld.Log

open Save

/-- The names of the logs of a server: its own, and those of its components. -/
def logNames : List String := "server" :: components

/-- The paths of the logs that a server makes in a folder at some time. Without a folder it makes none. -/
def IsJournal (dir : String) (now : Data.Timestamp) (path : String) : Prop :=
  dir ≠ "" ∧ ∃ name ∈ logNames, path = Logger.filePath dir name now

/-! ## Loggers -/

namespace Logger

variable {l : Logger} {paths : String → Prop}

/-- A logger whose file, if it has one, is at one of some paths. -/
def WritesTo (l : Logger) (paths : String → Prop) : Prop := ∀ path ∈ l.file, paths path

theorem writesTo_of_file {l' : Logger} (h : l.WritesTo paths) (hfile : l'.file = l.file) :
    l'.WritesTo paths := by
  rw [WritesTo, hfile]
  exact h

theorem writesTo_consoleOnly (paths : String → Prop) (component : String) (console : Level) :
    (consoleOnly component console).WritesTo paths := by
  simp [WritesTo, consoleOnly]

theorem journaled_write (h : l.WritesTo paths) (m : Message) (fs : Files) :
    fs.Journaled paths (l.write m fs).1 := by
  rw [write]
  dsimp only
  cases hfile : l.toFile m with
  | none => exact .refl paths fs
  | some path =>
    have hpath : paths path := by
      rw [toFile] at hfile
      split at hfile
      · exact h path hfile
      · cases hfile
    dsimp only
    cases happend : fs.appendFile path (terminated (line l.component m)).toUTF8 with
    | error e => exact .refl paths fs
    | ok fs' => exact .appendFile hpath happend

/-- A logger without a file leaves the files as they are. -/
theorem files_write_of_none (h : l.WritesTo fun _ => False) (m : Message) (fs : Files) : (l.write m fs).1 = fs := by
  have hfile : l.toFile m = none := by
    rw [toFile]
    split
    · exact Option.eq_none_iff_forall_not_mem.mpr h
    · rfl
  rw [write, hfile]

theorem journaled_create {component : String} (hname : component ∈ logNames) (o : Options)
    (now : Data.Timestamp) (fs : Files) :
    fs.Journaled (IsJournal o.dir now) (create o now component fs).1
      ∧ (o.dir = "" → (create o now component fs).1 = fs)
      ∧ ∀ l, (create o now component fs).2 = .ok l → l.WritesTo (IsJournal o.dir now) := by
  rw [create]
  split
  · refine ⟨.refl _ fs, fun _ => rfl, fun l hl => ?_⟩
    cases hl
    exact writesTo_consoleOnly _ component o.console
  · rename_i hdir
    have hfolder := Files.Journaled.of_grown (IsJournal o.dir now) (.mkdirAll fs o.dir)
    generalize fs.mkdirAll o.dir = made at hfolder
    obtain ⟨fs₁, result⟩ := made
    cases result with
    | error e => exact ⟨hfolder, fun he => absurd he hdir, fun l hl => nomatch hl⟩
    | ok u =>
      dsimp only
      cases happend : fs₁.appendFile (filePath o.dir component now) .empty with
      | error e => exact ⟨hfolder, fun he => absurd he hdir, fun l hl => nomatch hl⟩
      | ok fs₂ =>
        have hlog : IsJournal o.dir now (filePath o.dir component now) := ⟨hdir, component, hname, rfl⟩
        refine ⟨hfolder.trans (.appendFile hlog happend), fun he => absurd he hdir, fun l hl => ?_⟩
        cases hl
        rintro path ⟨⟩
        exact hlog

end Logger

/-! ## All loggers of a program -/

namespace Manager

variable {m m' : Manager} {now : Data.Timestamp}

/-- Loggers that write to the logs of their time only. -/
structure Settled (now : Data.Timestamp) (m : Manager) : Prop where
  main : m.main.WritesTo (IsJournal m.options.dir now)
  loggers : ∀ p ∈ m.loggers, p.2.WritesTo (IsJournal m.options.dir now)

/-- What loggers may do. -/
structure Wrote (now : Data.Timestamp) (m m' : Manager) : Prop where
  options : m'.options = m.options
  files : m.files.Journaled (IsJournal m.options.dir now) m'.files
  /-- Without a folder for logs there are no logs. -/
  unlogged : m.options.dir = "" → m'.files = m.files
  settled : m'.Settled now

theorem settled_initial (files : Files) (o : Options) (now : Data.Timestamp) :
    ((initial files).configure o).Settled now :=
  ⟨Logger.writesTo_consoleOnly _ "" .info, by simp [configure, initial]⟩

namespace Wrote

theorem refl (h : m.Settled now) : Wrote now m m := ⟨rfl, .refl _ _, fun _ => rfl, h⟩

theorem trans {m₁ m₂ m₃ : Manager} (h : Wrote now m₁ m₂) (h' : Wrote now m₂ m₃) :
    Wrote now m₁ m₃ := by
  have hfiles := h'.files
  have hunlogged := h'.unlogged
  rw [h.options] at hfiles hunlogged
  exact ⟨h'.options.trans h.options, h.files.trans hfiles, fun hdir => (hunlogged hdir).trans (h.unlogged hdir),
    h'.settled⟩

theorem writeWith (h : m.Settled now) {l : Logger} (hl : l.WritesTo (IsJournal m.options.dir now))
    (message : Message) : Wrote now m (m.writeWith l message).1 := by
  refine ⟨rfl, Logger.journaled_write hl message m.files, fun hdir => ?_, h.main, h.loggers⟩
  exact Logger.files_write_of_none (fun path hpath => (hl path hpath).1 hdir) message m.files

theorem writeMain (h : m.Settled now) (message : Message) : Wrote now m (m.writeMain message).1 :=
  writeWith h h.main message

theorem override (h : m.Settled now) (component : String) (levels : Levels) :
    Wrote now m (m.override component levels) := by
  refine ⟨rfl, .refl _ _, fun _ => rfl, h.main, fun p hp => ?_⟩
  obtain ⟨q, hq, rfl⟩ := List.mem_map.mp hp
  have hold := h.loggers q hq
  dsimp only
  split
  · exact Logger.writesTo_of_file hold rfl
  · exact hold

theorem applyLevels (h : m.Settled now) {levels : List (String × String)}
    (hok : m.applyLevels levels = .ok m') : Wrote now m m' := by
  rw [Manager.applyLevels] at hok
  cases hread : readLevels levels with
  | error e =>
    rw [hread] at hok
    cases hok
  | ok parsed =>
    rw [hread] at hok
    cases hok
    clear hread
    induction parsed generalizing m with
    | nil => exact .refl h
    | cons p rest ih =>
      have hfirst := override h p.1 ⟨p.2, p.2⟩
      exact hfirst.trans (ih hfirst.settled)

section Component

variable {component : String} (hname : component ∈ logNames)
include hname

theorem setMain (h : m.Settled now) : Wrote now m (m.setMain now component).1 := by
  obtain ⟨hfiles, hunlogged, hwrites⟩ := Logger.journaled_create hname m.options now m.files
  rw [Manager.setMain]
  generalize Logger.create m.options now component m.files = created at hfiles hunlogged hwrites
  obtain ⟨files, result⟩ := created
  cases result with
  | error e => exact ⟨rfl, hfiles, hunlogged, h.main, h.loggers⟩
  | ok main => exact ⟨rfl, hfiles, hunlogged, hwrites main rfl, h.loggers⟩

theorem make (h : m.Settled now) :
    Wrote now m (m.make now component).1
      ∧ (m.make now component).2.1.WritesTo (IsJournal m.options.dir now) := by
  obtain ⟨hfiles, hunlogged, hwrites⟩ := Logger.journaled_create hname m.options now m.files
  rw [Manager.make]
  generalize Logger.create m.options now component m.files = created at hfiles hunlogged hwrites
  obtain ⟨files, result⟩ := created
  have hmade : Wrote now m { m with files } := ⟨rfl, hfiles, hunlogged, h.main, h.loggers⟩
  cases result with
  | error e =>
    exact ⟨hmade.trans (writeMain hmade.settled _), Logger.writesTo_consoleOnly _ component _⟩
  | ok l => exact ⟨hmade, hwrites l rfl⟩

theorem logger (h : m.Settled now) :
    Wrote now m (m.logger now component).1
      ∧ (m.logger now component).2.1.WritesTo (IsJournal m.options.dir now) := by
  rw [Manager.logger]
  cases hlook : m.loggers.lookup component with
  | some l =>
    obtain ⟨before, after, hloggers, -⟩ := List.lookup_eq_some_iff.mp hlook
    exact ⟨.refl h, h.loggers (component, l) (by simp [hloggers])⟩
  | none =>
    obtain ⟨hmade, hwrites⟩ := make hname h
    generalize m.make now component = made at hmade hwrites
    obtain ⟨m', l, lines⟩ := made
    dsimp only at hmade hwrites ⊢
    have hadjusted : (m'.adjusted component l).WritesTo (IsJournal m.options.dir now) := by
      rw [adjusted]
      split
      · exact Logger.writesTo_of_file hwrites rfl
      · exact hwrites
    refine ⟨⟨hmade.options, hmade.files, hmade.unlogged, hmade.settled.main, fun p hp => ?_⟩, hadjusted⟩
    rcases List.mem_append.mp hp with hold | hnew
    · exact hmade.settled.loggers p hold
    · rw [List.mem_singleton.mp hnew]
      dsimp only
      rw [hmade.options]
      exact hadjusted

theorem write (h : m.Settled now) (message : Message) :
    Wrote now m (m.write now component message).1 := by
  obtain ⟨hmade, hwrites⟩ := logger hname h
  rw [Manager.write]
  generalize m.logger now component = found at hmade hwrites
  obtain ⟨m', l, lines⟩ := found
  exact hmade.trans (writeWith hmade.settled (hmade.options ▸ hwrites) message)

end Component

end Wrote

end Manager

end BlockWorld.Log
