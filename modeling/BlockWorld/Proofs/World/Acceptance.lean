import BlockWorld.Proofs.Manifest
import BlockWorld.Proofs.World.Loading
/-!
Which saves can be loaded. `Loadable` says it of the names and bytes of a save alone: the manifest is
missing or valid, each entry for a megachunk is well-formed and holds the megachunk of its name, no
megachunk comes twice, and the manifest counts them. A load succeeds for exactly these saves, and
otherwise leaves the world as it is. Its error then speaks of corrupt data, but for the failures that
`Excused` lists: those of the archive itself, and a manifest on which the reading of its text breaks
down.

How the proof goes. A load goes through the manifest, the names and the entries, and the first failure is its
error. Each of these checks is turned into the part of `Loadable` that it decides: the manifest
(`manifestFits_iff`), one entry (`passed?_isSome_iff`), and all of them together
(`parseSave_ok_iff_loadable`). For the error the same checks are gone through once more from the other side:
if a check fails, the error speaks of corrupt data or the failure is one of those listed
(`isCorrupt_or_excused_of_manifest`, `isCorrupt_or_read_of_entry`, `isCorrupt_or_excused`). The list cannot be
shortened by the case of a reading that breaks down: `loadFrom_sequenceKey` is a save with such a manifest.
-/
namespace BlockWorld.World

open Grid Save Data

/-! ## Saves that can be loaded -/

/-- A manifest that is not there, or is valid and has the given count. -/
def ManifestFits (source : Source) (count : Nat) : Prop :=
  (∃ e, source.read Manifest.entryName = .error e ∧ e.isAbsent = true)
    ∨ ∃ data m, source.read Manifest.entryName = .ok data ∧ Manifest.parsed data = .ok m ∧ m.Valid
      ∧ m.megachunks = Int64.ofNat count

/-- A save that can be loaded. -/
def Loadable (source : Source) : Prop :=
  ∃ names, source.names = .ok names
    ∧ ManifestFits source (names.filterMap EntryName.parse?).length
    ∧ (∀ name ∈ names, ∀ c, EntryName.parse? name = some c →
        ∃ data, source.read name = .ok data ∧ Megachunk.WellFormed data
          ∧ Megachunk.decodeHeader data = c)
    ∧ (names.filterMap EntryName.parse?).Nodup

section Loadable

variable (source : Source)

/-- The manifest of a save fits if and only if it is read and counts right. -/
theorem manifestFits_iff (count : Nat) :
    ManifestFits source count
      ↔ ∃ manifest, Manifest.readFrom source = .ok manifest
        ∧ ∀ m, manifest = some m → m.megachunks = Int64.ofNat count := by
  constructor
  · rintro (habsent | ⟨data, m, hread, hparsed, hvalid, hcount⟩)
    · exact ⟨none, Manifest.readFrom_eq_none_iff.mpr habsent, fun m hm => (nomatch hm)⟩
    · have hdecode := (Manifest.decode_eq_ok_iff data m).mpr ⟨hparsed, hvalid⟩
      refine ⟨some m, Manifest.readFrom_eq_some_iff.mpr ⟨data, hread, hdecode⟩, fun m' hm' => ?_⟩
      obtain rfl := Option.some.inj hm'
      exact hcount
  · rintro ⟨manifest, hmanifest, hcount⟩
    cases manifest with
    | none => exact .inl (Manifest.readFrom_eq_none_iff.mp hmanifest)
    | some m =>
      obtain ⟨data, hread, hdecode⟩ := Manifest.readFrom_eq_some_iff.mp hmanifest
      obtain ⟨hparsed, hvalid⟩ := (Manifest.decode_eq_ok_iff data m).mp hdecode
      exact .inr ⟨data, m, hread, hparsed, hvalid, hcount m rfl⟩

/-- An entry passes if and only if its bytes are well-formed and hold the megachunk of its name. -/
theorem passed?_isSome_iff (name : String) (c : Coord) :
    (passed? source (name, c)).isSome = true
      ↔ ∃ data, source.read name = .ok data ∧ Megachunk.WellFormed data
        ∧ Megachunk.decodeHeader data = c := by
  rw [Option.isSome_iff_exists]
  constructor
  · rintro ⟨p, hp⟩
    obtain ⟨hread, hparse, -⟩ := (passed?_eq_some_iff ..).mp hp
    exact ⟨p.data, hread, (Megachunk.parse_ok_iff p.data).mp ⟨_, _, hparse⟩,
      (Megachunk.parse_coord hparse).symm⟩
  · rintro ⟨data, hread, hwell, rfl⟩
    obtain ⟨c, records, hparse⟩ := (Megachunk.parse_ok_iff data).mpr hwell
    obtain rfl := Megachunk.parse_coord hparse
    exact ⟨⟨_, data, records⟩, (passed?_eq_some_iff ..).mpr ⟨hread, hparse, rfl⟩⟩

/-- All checks pass for exactly the saves that can be loaded. -/
theorem parseSave_ok_iff_loadable : (∃ save, parseSave source = .ok save) ↔ Loadable source := by
  have hentries : ∀ names, (∀ e ∈ entriesOf names, (passed? source e).isSome = true)
      ↔ ∀ name ∈ names, ∀ c, EntryName.parse? name = some c →
        ∃ data, source.read name = .ok data ∧ Megachunk.WellFormed data
          ∧ Megachunk.decodeHeader data = c := by
    intro names
    constructor
    · intro h name hname c hc
      exact (passed?_isSome_iff source name c).mp (h (name, c) (mem_entriesOf.mpr ⟨hname, hc⟩))
    · rintro h ⟨name, c⟩ he
      obtain ⟨hname, hc⟩ := mem_entriesOf.mp he
      exact (passed?_isSome_iff source name c).mpr (h name hname c hc)
  rw [parseSave_ok_iff]
  constructor
  · rintro ⟨manifest, names, hmanifest, hnames, hpass, hnodup, hcount⟩
    exact ⟨names, hnames, (manifestFits_iff ..).mpr ⟨manifest, hmanifest, hcount⟩,
      (hentries names).mp hpass, hnodup⟩
  · rintro ⟨names, hnames, hfits, hpass, hnodup⟩
    obtain ⟨manifest, hmanifest, hcount⟩ := (manifestFits_iff ..).mp hfits
    exact ⟨manifest, names, hmanifest, hnames, (hentries names).mpr hpass, hnodup, hcount⟩

end Loadable

/-! ## Errors -/

/-- The failures of a load that do not speak of corrupt data. -/
inductive Excused (source : Source) : LoadError → Prop where
  /-- The archive cannot list its names. -/
  | list {e : ArchiveError} (h : source.names = .error e) : Excused source (.list e)
  /-- The archive cannot read the entry of a megachunk. -/
  | read {names : List String} {name : String} {c : Coord} {e : ArchiveError}
      (hnames : source.names = .ok names) (hname : name ∈ names)
      (hc : EntryName.parse? name = some c) (h : source.read name = .error e) :
      Excused source (.read name e)
  /-- The text of the manifest breaks the reading down. -/
  | breakdown {data : ByteArray} {b : Yaml.Breakdown}
      (hread : source.read Manifest.entryName = .ok data)
      (h : Manifest.parsed data = .error (.broken b)) :
      Excused source (.manifest (.parse (.broken b)))

/-- The reasons that an archive can have. -/
theorem mem_of_mem_reasons {e : ArchiveError} {r : Reason} (hr : r ∈ e.reasons) :
    r ∈ [Reason.injected, .entryNotFound, .noSave, .notExist] := by
  have hfile : ∀ f : FileError, r ∈ f.reasons → r = .notExist := by
    intro f hf
    rw [FileError.reasons] at hf
    split at hf
    · exact List.mem_singleton.mp hf
    · cases hf
  cases e with
  | saveFolder f => rw [hfile f hr]; decide
  | tempFile f => rw [hfile f hr]; decide
  | replaceFile f => rw [hfile f hr]; decide
  | openFile path f => rw [hfile f hr]; decide
  | _ => simp_all [ArchiveError.reasons]

theorem isCorrupt_eq_false_iff (e : LoadError) : e.isCorrupt = false ↔ .corrupt ∉ e.reasons := by
  rw [LoadError.isCorrupt, ← Bool.not_eq_true, List.contains_iff_mem]

section Errors

variable {source : Source}

/-- An excused failure does not speak of corrupt data. -/
theorem Excused.isCorrupt {e : LoadError} (h : Excused source e) : e.isCorrupt = false := by
  rw [isCorrupt_eq_false_iff]
  cases h with
  | list _ => exact fun hr => absurd (mem_of_mem_reasons hr) (by decide)
  | read _ _ _ _ => exact fun hr => absurd (mem_of_mem_reasons hr) (by decide)
  | breakdown _ _ => exact fun (hr : .corrupt ∈ [Reason.breakdown]) => absurd hr (by decide)

/-- A manifest that cannot be read is corrupt, unless its text breaks the reading down. -/
theorem isCorrupt_or_excused_of_manifest {e : ManifestError}
    (h : Manifest.readFrom source = .error e) :
    (LoadError.manifest e).isCorrupt = true ∨ Excused source (.manifest e) := by
  by_cases hbreak : Fault.isBreakdown e = true
  · right
    cases hread : source.read Manifest.entryName with
    | error x =>
      -- What an archive fails with is never a breakdown.
      rw [Manifest.readFrom_of_error hread] at h
      split at h
      · cases h
      · obtain rfl := Except.error.inj h
        exact absurd (mem_of_mem_reasons (List.contains_iff_mem.mp hbreak)) (by decide)
    | ok data =>
      rw [Manifest.readFrom_of_ok hread] at h
      cases hdecode : Manifest.decode data with
      | ok m => rw [hdecode] at h; cases h
      | error e' =>
        rw [hdecode] at h
        obtain rfl := Except.error.inj h
        obtain ⟨b, hparsed, rfl⟩ := Manifest.parsed_of_isBreakdown hdecode hbreak
        exact .breakdown hread hparsed
  · left
    rw [LoadError.isCorrupt, LoadError.reasons, if_neg hbreak]
    rfl

/-- An entry that does not pass is corrupt, unless the archive cannot read it. -/
theorem isCorrupt_or_read_of_entry {seen : List Coord} {name : String} {c : Coord} {e : LoadError}
    {event : Option Event} (h : parseEntry source seen name c = .error (e, event)) :
    e.isCorrupt = true ∨ ∃ x, source.read name = .error x ∧ e = .read name x := by
  rw [parseEntry] at h
  split at h
  · rename_i x hread
    obtain ⟨rfl, -⟩ := Prod.mk.inj (Except.error.inj h)
    exact .inr ⟨x, hread, rfl⟩
  · left
    split at h
    · obtain ⟨rfl, -⟩ := Prod.mk.inj (Except.error.inj h)
      rfl
    · split at h
      · obtain ⟨rfl, -⟩ := Prod.mk.inj (Except.error.inj h)
        rfl
      · split at h
        · obtain ⟨rfl, -⟩ := Prod.mk.inj (Except.error.inj h)
          rfl
        · cases h

theorem isCorrupt_or_read_of_entries {seen : List Coord} {names : List String} {e : LoadError}
    {event : Option Event} (h : parseEntries source seen names = .error (e, event)) :
    e.isCorrupt = true ∨ ∃ name ∈ names, ∃ c x, EntryName.parse? name = some c
      ∧ source.read name = .error x ∧ e = .read name x := by
  induction names generalizing seen with
  | nil => cases h
  | cons name names ih =>
    have hlater : ∀ seen', parseEntries source seen' names = .error (e, event) →
        e.isCorrupt = true ∨ ∃ n ∈ name :: names, ∃ c x, EntryName.parse? n = some c
          ∧ source.read n = .error x ∧ e = .read n x := by
      intro seen' h'
      obtain hcorrupt | ⟨n, hn, hread⟩ := ih h'
      · exact .inl hcorrupt
      · exact .inr ⟨n, List.mem_cons_of_mem name hn, hread⟩
    rw [parseEntries] at h
    cases hparse : EntryName.parse? name with
    | none =>
      rw [hparse] at h
      exact hlater seen h
    | some c =>
      rw [hparse] at h
      dsimp only at h
      split at h
      · rename_i e' hentry
        obtain rfl := Except.error.inj h
        obtain hcorrupt | ⟨x, hread, rfl⟩ := isCorrupt_or_read_of_entry hentry
        · exact .inl hcorrupt
        · exact .inr ⟨name, List.mem_cons_self, c, x, hparse, hread, rfl⟩
      · split at h
        · rename_i hrest
          obtain rfl := Except.error.inj h
          exact hlater _ hrest
        · cases h

/-- A save that does not pass is corrupt, unless its failure is excused. -/
theorem isCorrupt_or_excused {e : LoadError} {event : Option Event}
    (h : parseSave source = .error (e, event)) : e.isCorrupt = true ∨ Excused source e := by
  rw [parseSave] at h
  split at h
  · rename_i x hmanifest
    obtain ⟨rfl, -⟩ := Prod.mk.inj (Except.error.inj h)
    exact isCorrupt_or_excused_of_manifest hmanifest
  · split at h
    · rename_i x hnames
      obtain ⟨rfl, -⟩ := Prod.mk.inj (Except.error.inj h)
      exact .inr (.list hnames)
    · rename_i names hnames
      split at h
      · rename_i hentries
        obtain rfl := Except.error.inj h
        obtain hcorrupt | ⟨name, hname, c, x, hc, hread, rfl⟩ :=
          isCorrupt_or_read_of_entries hentries
        · exact .inl hcorrupt
        · exact .inr (.read hnames hname hc hread)
      · split at h
        · split at h
          · cases h
          · obtain ⟨rfl, -⟩ := Prod.mk.inj (Except.error.inj h)
            exact .inl rfl
        · cases h

end Errors

/-- Loading is all or nothing. It succeeds if and only if the save is one that can be loaded. A load
that fails leaves the megachunks, the arena with all its slots, the name of the world and its tick as
they are, and its error speaks of corrupt data unless the archive could not list its names or read
the entry of a megachunk, or the reading of the manifest broke down. -/
theorem loadFrom_ok_iff_loadable (w : World) (source : Source) :
    ((w.loadFrom source).1 = .ok () ↔ Loadable source)
      ∧ ∀ e, (w.loadFrom source).1 = .error e →
        (w.loadFrom source).2.megachunks = w.megachunks
          ∧ (w.loadFrom source).2.arena = w.arena
          ∧ w.SameName (w.loadFrom source).2
          ∧ (w.loadFrom source).2.tick = w.tick
          ∧ (e.isCorrupt = false ↔ Excused source e) := by
  rw [← parseSave_ok_iff_loadable]
  cases h : parseSave source with
  | ok save =>
    have hok := (loadFrom_of_ok w h).1
    refine ⟨⟨fun _ => ⟨save, rfl⟩, fun _ => hok⟩, fun e he => ?_⟩
    rw [hok] at he
    cases he
  | error failure =>
    obtain ⟨e', event⟩ := failure
    obtain ⟨herror, hsame⟩ := loadFrom_of_error w h
    refine ⟨⟨fun hok => ?_, fun ⟨_, hsave⟩ => (nomatch hsave)⟩, fun e he => ?_⟩
    · rw [herror] at hok
      cases hok
    · obtain rfl := Except.error.inj (herror.symm.trans he)
      refine ⟨hsame.storage.1, hsame.storage.2, hsame.name, hsame.tick, fun hcorrupt => ?_,
        Excused.isCorrupt⟩
      cases isCorrupt_or_excused h with
      | inl htrue => rw [htrue] at hcorrupt; cases hcorrupt
      | inr hexcused => exact hexcused

/-- A save whose manifest has a sequence among its keys and another mapping merged into it. -/
def sequenceKey : MemoryArchive :=
  { MemoryArchive.empty with
    entries := .ofList [(Manifest.entryName, "\x7b[1]: x, <<: \x7bseed: 5\x7d\x7d\n".toUTF8)] }

/-- The reading of this manifest breaks down, and the error does not speak of corrupt data. -/
theorem loadFrom_sequenceKey :
    ((World.new 1 "7f3c9a52-0000-4b1e-9d06-000000000001" .zero "").loadFrom sequenceKey.source).1
        = .error (.manifest (.parse (.broken (.key .sequence))))
      ∧ LoadError.isCorrupt (.manifest (.parse (.broken (.key .sequence)))) = false := by
  decide +kernel

end BlockWorld.World
