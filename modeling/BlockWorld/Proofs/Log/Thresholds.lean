import Mathlib.Data.List.Forall2
import BlockWorld.Log.Manager
import BlockWorld.Proofs.Save.Files
/-!
The thresholds of loggers. The levels set for a component are kept in two places: with its logger,
if there is one, and in the overrides, from which a logger that is made later takes them. Whatever the
order in which levels are set and loggers are made and closed, the overrides hold what was set last
for each component and every logger obeys it (`Manager.Levelled`, `Manager.Levelled.apply`).

Levels for several components come as a map, whose entries are gone through twice, in any two
orders: first they are checked, then they are set (`Manager.applyMap`). A map that passes the check is
set as a whole, and one that does not changes nothing.

How the proof goes. What was set last for a component is computed from the calls alone (`latest`), without any
logger. One call leads from what was set before it to what was set after it, on both sides
(`Manager.Levelled.apply`), where a call that is invalid changes nothing on either (`apply_of_invalid`). The
cases are those of the calls: making a logger takes the overrides over (`Manager.Levelled.logger`), setting
levels writes both places (`Manager.Levelled.override`), and closing forgets loggers but not overrides
(`Manager.Levelled.closeAll`). A run is an induction over its calls (`Manager.Levelled.run`).

For maps, the second pass cannot fail after the first (`setEach_of_settable`), and since names are distinct
the order of the entries is not seen (`LevelMap.levels?_congr`). So two runs whose maps come up in different
orders set the same (`latest_congr`).
-/
namespace BlockWorld.Log

/-! ## Loggers and their levels -/

/-- A logger with given thresholds; that of the file counts only where there is a file. -/
structure Logger.Obeys (l : Logger) (levels : Levels) : Prop where
  console : l.console = levels.console
  file : l.file.isSome = true → l.fileLevel = levels.file

namespace Logger

theorem obeys_setLevels (l : Logger) (levels : Levels) :
    (l.setLevels levels.console levels.file).Obeys levels := by
  refine ⟨rfl, fun hfile => ?_⟩
  simp only [setLevels] at hfile ⊢
  simp [hfile]

theorem obeys_consoleOnly (component : String) (levels : Levels) :
    (consoleOnly component levels.console).Obeys levels :=
  ⟨rfl, by simp [consoleOnly]⟩

end Logger

/-- The levels of a component: what was set for it, or else the options. -/
def Options.due (o : Options) (set : Option Levels) : Levels := set.getD ⟨o.console, o.file⟩

/-- A new logger has the levels of the options. -/
theorem Logger.obeys_create {o : Options} {now : Data.Timestamp} {component : String}
    {fs : Save.Files} {l : Logger} (h : (create o now component fs).2 = .ok l) :
    l.Obeys (o.due none) := by
  unfold create at h
  split at h
  · simp only [Except.ok.injEq] at h
    rw [← h]
    exact obeys_consoleOnly component (o.due none)
  · split at h
    · cases h
    · simp only at h
      split at h
      · cases h
      · simp only [Except.ok.injEq] at h
        rw [← h]
        exact ⟨rfl, fun _ => rfl⟩

namespace Manager

/-- Loggers that obey what was set for their components, with the overrides to match. -/
structure Levelled (o : Options) (set : String → Option Levels) (m : Manager) : Prop where
  options : m.options = o
  overrides : ∀ c, m.overrides.lookup c = set c
  loggers : ∀ p ∈ m.loggers, p.2.Obeys (o.due (set p.1))

variable {o : Options} {set : String → Option Levels} {m : Manager}

/-! ## Making loggers -/

/-- A logger that is made has the levels of the options, whether it has got its file or not. -/
theorem make_spec (m : Manager) (now : Data.Timestamp) (c : String) :
    (m.make now c).1.options = m.options ∧ (m.make now c).1.overrides = m.overrides
      ∧ (m.make now c).1.loggers = m.loggers
      ∧ (m.make now c).2.1.Obeys (m.options.due none) := by
  unfold make
  cases hcreate : Logger.create m.options now c m.files with
  | mk files result =>
    cases result with
    | error e => exact ⟨rfl, rfl, rfl, Logger.obeys_consoleOnly c (m.options.due none)⟩
    | ok l =>
      have hok : (Logger.create m.options now c m.files).2 = .ok l := by rw [hcreate]
      exact ⟨rfl, rfl, rfl, Logger.obeys_create hok⟩

/-- Levels that were set before a logger is made are its levels from the start. -/
theorem Levelled.obeys_adjusted (h : m.Levelled o set) (c : String) {l : Logger}
    (hl : l.Obeys (o.due none)) : (m.adjusted c l).Obeys (o.due (set c)) := by
  unfold adjusted
  rw [h.overrides]
  cases set c with
  | none => exact hl
  | some levels => exact l.obeys_setLevels levels

/-- A logger that is asked for obeys, and so do all others as before. -/
theorem Levelled.logger (h : m.Levelled o set) (now : Data.Timestamp) (c : String) :
    (m.logger now c).1.Levelled o set ∧ (m.logger now c).2.1.Obeys (o.due (set c)) := by
  unfold Manager.logger
  cases hlook : m.loggers.lookup c with
  | some l =>
    obtain ⟨before, after, hloggers, -⟩ := List.lookup_eq_some_iff.mp hlook
    exact ⟨h, h.loggers (c, l) (by simp [hloggers])⟩
  | none =>
    obtain ⟨hoptions, hoverrides, hloggers, hobeys⟩ := m.make_spec now c
    generalize m.make now c = made at hoptions hoverrides hloggers hobeys
    obtain ⟨m', l, lines⟩ := made
    simp only at hoptions hoverrides hloggers hobeys ⊢
    have hmade : m'.Levelled o set :=
      ⟨hoptions.trans h.options, hoverrides ▸ h.overrides, hloggers ▸ h.loggers⟩
    have hnew := hmade.obeys_adjusted c (h.options ▸ hobeys)
    refine ⟨⟨hmade.options, hmade.overrides, fun p hp => ?_⟩, hnew⟩
    rcases List.mem_append.mp hp with hold | hlast
    · exact hmade.loggers p hold
    · rw [List.mem_singleton.mp hlast]
      exact hnew

theorem Levelled.closeAll (h : m.Levelled o set) : m.closeAll.Levelled o set :=
  ⟨h.options, h.overrides, by simp [Manager.closeAll]⟩

/-! ## Setting levels -/

theorem lookup_override (m : Manager) (c : String) (levels : Levels) (other : String) :
    (m.override c levels).overrides.lookup other
      = if other = c then some levels else m.overrides.lookup other := by
  simp only [override, List.lookup_cons, Save.Files.lookup_filter_ne]
  by_cases hc : other = c
  · simp [hc]
  · have hne : (other == c) = false := by simp [hc]
    simp [hc, hne]

/-- Levels that are set reach the logger of the component, if there is one, and no other. -/
theorem Levelled.override (h : m.Levelled o set) (c : String) (levels : Levels) :
    (m.override c levels).Levelled o fun other => if other = c then some levels else set other := by
  refine ⟨h.options, fun other => ?_, fun p hp => ?_⟩
  · rw [lookup_override, h.overrides]
  · simp only [Manager.override, List.mem_map] at hp
    obtain ⟨q, hq, rfl⟩ := hp
    by_cases hc : q.1 = c
    · simp only [hc, if_true]
      exact q.2.obeys_setLevels levels
    · simp only [hc, if_false]
      exact h.loggers q hq

end Manager

/-! ## Maps of levels -/

/-- A map from names to texts of levels, with its entries in two orders: that in which they come up
when they are checked, and that in which they come up when they are set. -/
structure LevelMap where
  checked : List (String × String)
  entries : List (String × String)
  perm : checked.Perm entries
  distinct : (entries.map (·.1)).Nodup

/-- The level that is set for a text. One that names no level would count as `info`. -/
def levelOf (text : String) : Level := (Level.parse text).toOption.getD .info

/-- An entry that can be set: the component is known and the text names a level. -/
def isSettable (p : String × String) : Bool := p.1 ∈ components && (Level.parse p.2).isOk

/-- The levels that a map has for a component. -/
def LevelMap.levels? (a : LevelMap) (c : String) : Option Levels :=
  (a.entries.lookup c).map fun text => ⟨levelOf text, levelOf text⟩

theorem lookup_of_fresh {entries : List (String × String)} {c : String}
    (h : c ∉ entries.map (·.1)) : entries.lookup c = none := by
  rw [List.lookup_eq_none_iff]
  intro p hp
  rw [bne_iff_ne]
  rintro rfl
  exact h (List.mem_map.mpr ⟨p, hp, rfl⟩)

/-- What is wrong with entries that cannot all be set. -/
theorem all_isSettable_eq_false_iff (entries : List (String × String)) :
    entries.all isSettable = false
      ↔ ∃ p ∈ entries, p.1 ∉ components ∨ ∃ e, Level.parse p.2 = .error e := by
  have hwrong : ∀ p : String × String, isSettable p = false
      ↔ p.1 ∉ components ∨ ∃ e, Level.parse p.2 = .error e := by
    intro p
    cases hparse : Level.parse p.2 <;> simp [isSettable, hparse, Except.isOk, Except.toBool]
  simp [List.all_eq_false, ← hwrong]

/-- Reading levels succeeds if and only if all entries can be set. -/
theorem readLevels_isOk (entries : List (String × String)) :
    (readLevels entries).isOk = entries.all isSettable := by
  induction entries with
  | nil => rfl
  | cons p rest ih =>
    obtain ⟨name, text⟩ := p
    simp only [readLevels, List.all_cons, isSettable, ← ih]
    by_cases hname : name ∈ components
    · cases Level.parse text with
      | error e => simp [hname, Except.isOk, Except.toBool]
      | ok level =>
        cases readLevels rest <;> simp [hname, Except.isOk, Except.toBool]
    · simp [hname, Except.isOk, Except.toBool]

theorem readLevels_of_settable {entries : List (String × String)}
    (h : entries.all isSettable = true) :
    readLevels entries = .ok (entries.map fun p => (p.1, levelOf p.2)) := by
  induction entries with
  | nil => rfl
  | cons p rest ih =>
    obtain ⟨name, text⟩ := p
    simp only [List.all_cons, isSettable, Bool.and_eq_true, decide_eq_true_eq] at h
    obtain ⟨⟨hname, hparse⟩, hrest⟩ := h
    simp only [readLevels, hname, if_true, ih hrest, List.map_cons, levelOf]
    cases htext : Level.parse text with
    | error e => simp [htext, Except.isOk, Except.toBool] at hparse
    | ok level => simp [Except.toOption]

namespace Manager

variable {o : Options} {set : String → Option Levels} {m : Manager}

/-- Sets levels entry by entry, until a component is not known. -/
def setEach (m : Manager) : List (String × String) → Manager × Except LevelError Unit
  | [] => (m, .ok ())
  | p :: rest =>
    match m.setLevel p.1 ⟨levelOf p.2, levelOf p.2⟩ with
    | .error e => (m, .error e)
    | .ok m => m.setEach rest

/-- Goes through a map twice: checks all entries, then sets them. -/
def applyMap (m : Manager) (a : LevelMap) : Manager × Except LevelError Unit :=
  match readLevels a.checked with
  | .error e => (m, .error e)
  | .ok _ => m.setEach a.entries

/-- Sets the levels of entries whose components are known. -/
def overrideAll (m : Manager) (entries : List (String × String)) : Manager :=
  entries.foldl (fun m p => m.override p.1 ⟨levelOf p.2, levelOf p.2⟩) m

/-- Nothing stops the setting of entries that have been checked. -/
theorem setEach_of_settable {entries : List (String × String)}
    (h : entries.all isSettable = true) (m : Manager) :
    m.setEach entries = (m.overrideAll entries, .ok ()) := by
  induction entries generalizing m with
  | nil => rfl
  | cons p rest ih =>
    simp only [List.all_cons, isSettable, Bool.and_eq_true, decide_eq_true_eq] at h
    obtain ⟨⟨hname, -⟩, hrest⟩ := h
    simp only [setEach, setLevel, hname, if_true]
    exact ih hrest _

theorem applyMap_of_settable {a : LevelMap} (h : a.entries.all isSettable = true) (m : Manager) :
    m.applyMap a = (m.overrideAll a.entries, .ok ()) := by
  have hchecked : a.checked.all isSettable = true := by rwa [a.perm.all_eq]
  rw [applyMap, readLevels_of_settable hchecked]
  exact setEach_of_settable h m

/-- A map with a wrong entry is refused before anything is set, whichever entry comes up first. -/
theorem applyMap_of_not_settable {a : LevelMap} (h : a.entries.all isSettable = false)
    (m : Manager) : ∃ e, m.applyMap a = (m, .error e) := by
  have hread := readLevels_isOk a.checked
  rw [a.perm.all_eq, h] at hread
  rw [applyMap]
  cases hresult : readLevels a.checked with
  | error e => exact ⟨e, rfl⟩
  | ok parsed => simp [hresult, Except.isOk, Except.toBool] at hread

/-- Reading the map as a whole comes to the same as going through it twice. -/
theorem applyLevels_of_settable {entries : List (String × String)}
    (h : entries.all isSettable = true) (m : Manager) :
    m.applyLevels entries = .ok (m.overrideAll entries) := by
  rw [applyLevels, readLevels_of_settable h, overrideAll]
  simp [Except.map, List.foldl_map]

theorem applyLevels_of_not_settable {entries : List (String × String)}
    (h : entries.all isSettable = false) (m : Manager) : ∃ e, m.applyLevels entries = .error e := by
  have hread := readLevels_isOk entries
  rw [h] at hread
  rw [applyLevels]
  cases hresult : readLevels entries with
  | error e => exact ⟨e, rfl⟩
  | ok parsed => simp [hresult, Except.isOk, Except.toBool] at hread

/-- Entries with distinct names are all set, whatever their order. -/
theorem Levelled.overrideAll {entries : List (String × String)} (h : m.Levelled o set)
    (hdistinct : (entries.map (·.1)).Nodup) :
    (m.overrideAll entries).Levelled o fun c =>
      ((entries.lookup c).map fun text => ⟨levelOf text, levelOf text⟩).or (set c) := by
  induction entries generalizing m set with
  | nil => exact h
  | cons p rest ih =>
    obtain ⟨name, text⟩ := p
    obtain ⟨hfresh, hrest⟩ := List.nodup_cons.mp hdistinct
    have hall := ih (h.override name ⟨levelOf text, levelOf text⟩) hrest
    have hset : (fun c => ((rest.lookup c).map fun text => ⟨levelOf text, levelOf text⟩).or
          (if c = name then some ⟨levelOf text, levelOf text⟩ else set c))
        = fun c => (((name, text) :: rest).lookup c |>.map
          fun text => ⟨levelOf text, levelOf text⟩).or (set c) := by
      funext c
      by_cases hc : c = name
      · -- No later entry has this name.
        simp [hc, lookup_of_fresh hfresh]
      · have hne : (c == name) = false := by simp [hc]
        simp [hc, List.lookup_cons, hne]
    exact hset ▸ hall

end Manager

/-! ## Calls -/

/-- A call on the loggers of a program. -/
inductive Call where
  | logger (now : Data.Timestamp) (component : String)
  | setLevel (component : String) (levels : Levels)
  | applyLevels (levels : LevelMap)
  | closeAll

namespace Call

/-- The loggers after a call, and whether it succeeded. -/
def apply (m : Manager) : Call → Manager × Except LevelError Unit
  | logger now c => ((m.logger now c).1, .ok ())
  | setLevel c levels =>
    match m.setLevel c levels with
    | .error e => (m, .error e)
    | .ok m => (m, .ok ())
  | applyLevels a => m.applyMap a
  | closeAll => (m.closeAll, .ok ())

/-- Calls one after the other. -/
def run (calls : List Call) (m : Manager) : Manager :=
  calls.foldl (fun m call => (call.apply m).1) m

/-- Whether the components that a call sets levels for are known, and the texts name levels. -/
def isValid : Call → Bool
  | logger _ _ => true
  | setLevel c _ => c ∈ components
  | applyLevels a => a.entries.all isSettable
  | closeAll => true

/-- The levels that a call sets for a component. An invalid call sets none. -/
def sets? (call : Call) (c : String) : Option Levels :=
  if call.isValid then
    match call with
    | logger _ _ => none
    | setLevel component levels => if c = component then some levels else none
    | applyLevels a => a.levels? c
    | closeAll => none
  else none

/-- The levels that were set last for a component. -/
def latest (calls : List Call) (c : String) : Option Levels := calls.reverse.findSome? (·.sets? c)

theorem latest_cons (call : Call) (rest : List Call) (c : String) :
    latest (call :: rest) c = (latest rest c).or (call.sets? c) := by
  have hlast : [call].findSome? (·.sets? c) = call.sets? c := by
    cases hcall : call.sets? c <;> simp [hcall]
  rw [latest, latest, List.reverse_cons, List.findSome?_append, hlast]

/-- A call fails if and only if it is invalid, and then it changes nothing. -/
theorem apply_of_invalid {call : Call} (h : call.isValid = false) (m : Manager) :
    ∃ e, call.apply m = (m, .error e) := by
  cases call with
  | logger now c => cases h
  | setLevel c levels =>
    simp only [isValid, decide_eq_false_iff_not] at h
    exact ⟨.unknownComponent c, by simp [apply, Manager.setLevel, h]⟩
  | applyLevels a => exact Manager.applyMap_of_not_settable h m
  | closeAll => cases h

theorem apply_of_valid {call : Call} (h : call.isValid = true) (m : Manager) :
    (call.apply m).2 = .ok () := by
  cases call with
  | logger now c => rfl
  | setLevel c levels =>
    simp only [isValid, decide_eq_true_eq] at h
    simp [apply, Manager.setLevel, h]
  | applyLevels a =>
    simp only [isValid] at h
    simp [apply, Manager.applyMap_of_settable h]
  | closeAll => rfl

end Call

/-! ## Runs -/

namespace Manager.Levelled

variable {o : Options} {set : String → Option Levels} {m : Manager}

/-- After a call, loggers obey what it set, and what was set before where it set nothing. -/
theorem apply (h : m.Levelled o set) (call : Call) :
    (call.apply m).1.Levelled o fun c => (call.sets? c).or (set c) := by
  cases hvalid : call.isValid with
  | false =>
    obtain ⟨e, hsame⟩ := Call.apply_of_invalid hvalid m
    simpa [hsame, Call.sets?, hvalid] using h
  | true =>
    cases call with
    | logger now c => simpa [Call.apply, Call.sets?] using (h.logger now c).1
    | setLevel c levels =>
      simp only [Call.isValid, decide_eq_true_eq] at hvalid
      have hset : (fun other => ((Call.setLevel c levels).sets? other).or (set other))
          = fun other => if other = c then some levels else set other := by
        funext other
        by_cases hc : other = c <;> simp [Call.sets?, Call.isValid, hvalid, hc]
      rw [hset]
      simpa [Call.apply, Manager.setLevel, hvalid] using h.override c levels
    | applyLevels a =>
      simp only [Call.isValid] at hvalid
      simpa [Call.apply, Manager.applyMap_of_settable hvalid, Call.sets?, Call.isValid, hvalid,
        LevelMap.levels?] using h.overrideAll a.distinct
    | closeAll => simpa [Call.apply, Call.sets?] using h.closeAll

/-- After any calls, loggers obey what was set last. -/
theorem run (h : m.Levelled o set) (calls : List Call) :
    (Call.run calls m).Levelled o fun c => (Call.latest calls c).or (set c) := by
  induction calls generalizing m set with
  | nil => exact h
  | cons call rest ih =>
    have hrun : Call.run (call :: rest) m = Call.run rest (call.apply m).1 := rfl
    rw [hrun]
    simpa only [Call.latest_cons, Option.or_assoc] using ih (h.apply call)

end Manager.Levelled

/-! ## Orders -/

/-- In a map each name leads to the text that it stands with. -/
theorem lookup_eq_some_iff_mem {entries : List (String × String)}
    (hdistinct : (entries.map (·.1)).Nodup) (c text : String) :
    entries.lookup c = some text ↔ (c, text) ∈ entries := by
  induction entries with
  | nil => simp
  | cons p rest ih =>
    obtain ⟨name, theirs⟩ := p
    obtain ⟨hfresh, hrest⟩ := List.nodup_cons.mp hdistinct
    rw [List.mem_cons, ← ih hrest]
    by_cases hc : c = name
    · simp [hc, lookup_of_fresh hfresh, eq_comm]
    · have hne : (c == name) = false := by simp [hc]
      simp [List.lookup_cons, hne, hc]

/-- The order of the entries does not matter. -/
theorem LevelMap.levels?_congr {a b : LevelMap} (h : a.entries.Perm b.entries) (c : String) :
    a.levels? c = b.levels? c := by
  have hlookup : a.entries.lookup c = b.entries.lookup c := by
    apply Option.ext
    intro text
    rw [lookup_eq_some_iff_mem a.distinct, lookup_eq_some_iff_mem b.distinct, h.mem_iff]
  rw [levels?, levels?, hlookup]

namespace Call

/-- The same call, where the entries of a map may come up in other orders. -/
inductive Reordered : Call → Call → Prop where
  | same (call : Call) : Reordered call call
  | orders {a b : LevelMap} (h : a.entries.Perm b.entries) :
      Reordered (applyLevels a) (applyLevels b)

theorem Reordered.isValid_eq {x y : Call} (h : Reordered x y) : x.isValid = y.isValid := by
  cases h with
  | same call => rfl
  | orders h => exact h.all_eq

theorem Reordered.sets?_eq {x y : Call} (h : Reordered x y) (c : String) :
    x.sets? c = y.sets? c := by
  unfold sets?
  rw [h.isValid_eq]
  cases h with
  | same call => rfl
  | orders h => simp only [LevelMap.levels?_congr h]

theorem latest_congr {calls calls' : List Call} (h : List.Forall₂ Reordered calls calls')
    (c : String) : latest calls c = latest calls' c := by
  induction h with
  | nil => rfl
  | cons hfirst _ ih => rw [latest_cons, latest_cons, ih, hfirst.sets?_eq]

end Call

/-! ## Calls that fail -/

namespace Manager

theorem setLevel_fails_iff (m : Manager) (c : String) (levels : Levels) :
    (∃ e, m.setLevel c levels = .error e) ↔ c ∉ components := by
  by_cases hc : c ∈ components <;> simp [setLevel, hc]

/-- A map is refused because of one entry at least. -/
theorem applyMap_fails_iff (m : Manager) (a : LevelMap) :
    (∃ e, (m.applyMap a).2 = .error e)
      ↔ ∃ p ∈ a.entries, p.1 ∉ components ∨ ∃ e, Level.parse p.2 = .error e := by
  rw [← all_isSettable_eq_false_iff]
  cases hvalid : a.entries.all isSettable with
  | true => simp [applyMap_of_settable hvalid]
  | false =>
    obtain ⟨e, hsame⟩ := applyMap_of_not_settable hvalid m
    simp [hsame]

/-- A map read as a whole is set or refused as one that is gone through twice. -/
theorem applyLevels_agrees (m : Manager) (a : LevelMap) :
    (∀ m', m.applyLevels a.entries = .ok m' ↔ m.applyMap a = (m', .ok ()))
      ∧ ((∃ e, m.applyLevels a.entries = .error e) ↔ ∃ e, m.applyMap a = (m, .error e)) := by
  cases hvalid : a.entries.all isSettable with
  | true => simp [applyLevels_of_settable hvalid, applyMap_of_settable hvalid]
  | false =>
    obtain ⟨e, hfail⟩ := applyLevels_of_not_settable hvalid m
    obtain ⟨e', hsame⟩ := applyMap_of_not_settable hvalid m
    simp [hfail, hsame]

end Manager

/-- A call that fails changes nothing. -/
theorem Call.apply_of_error (m : Manager) (call : Call) (e : LevelError)
    (he : (call.apply m).2 = .error e) : (call.apply m).1 = m := by
  cases hvalid : call.isValid with
  | true =>
    rw [apply_of_valid hvalid] at he
    cases he
  | false =>
    obtain ⟨e', hsame⟩ := apply_of_invalid hvalid m
    rw [hsame]

/-- Levels do not depend on when loggers are made. After any calls, every logger in use obeys what
was set last for its component by a valid call, or the options if nothing was set, and so does every
logger that is made next. In which orders the entries of maps come up makes no difference. Calls
fail if and only if a component is not known or a text names no level; then they change nothing. A
map that is read as a whole is set as one that is gone through twice. -/
theorem run_levels (o : Options) (main : Logger) (files : Save.Files) (calls : List Call) :
    let m := Call.run calls ⟨o, main, [], [], files⟩
    (∀ c l, (c, l) ∈ m.loggers → l.Obeys (o.due (Call.latest calls c)))
      ∧ (∀ now c, (m.logger now c).2.1.Obeys (o.due (Call.latest calls c)))
      ∧ (∀ calls', List.Forall₂ Call.Reordered calls calls' →
          ∀ c, Call.latest calls' c = Call.latest calls c)
      ∧ (∀ c levels, (∃ e, m.setLevel c levels = .error e) ↔ c ∉ components)
      ∧ (∀ a : LevelMap, (∃ e, (m.applyMap a).2 = .error e)
          ↔ ∃ p ∈ a.entries, p.1 ∉ components ∨ ∃ e, Level.parse p.2 = .error e)
      ∧ (∀ (call : Call) (e : LevelError), (call.apply m).2 = .error e → (call.apply m).1 = m)
      ∧ ∀ a : LevelMap,
          (∀ m', m.applyLevels a.entries = .ok m' ↔ m.applyMap a = (m', .ok ()))
            ∧ ((∃ e, m.applyLevels a.entries = .error e) ↔ ∃ e, m.applyMap a = (m, .error e)) := by
  intro m
  have hstart : Manager.Levelled o (fun _ => none) ⟨o, main, [], [], files⟩ :=
    ⟨rfl, fun _ => rfl, by simp⟩
  have hrun : m.Levelled o (Call.latest calls) := by
    simpa only [Option.or_none] using hstart.run calls
  exact ⟨fun c l hl => hrun.loggers (c, l) hl, fun now c => (hrun.logger now c).2,
    fun calls' h c => (Call.latest_congr h c).symm, m.setLevel_fails_iff, m.applyMap_fails_iff,
    Call.apply_of_error m, m.applyLevels_agrees⟩

end BlockWorld.Log
