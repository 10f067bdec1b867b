import BlockWorld.Proofs.Save.Readers
import BlockWorld.Proofs.World.Acceptance
import BlockWorld.Proofs.World.Saving
/-!
Loading through a reader while writers go on. A load asks its reader three kinds of questions, one after
the other: for the manifest, for the names, and for the entry of each megachunk. As long as no other
writer is closed before the names are listed, the load gives what the reader's generation had or
fails (`loadFrom_of_fading`). After that the list is empty, which is as good as a save without
megachunks: the load succeeds and leaves an empty world, unless it has still seen a manifest that
speaks against it (`lateLoad_spec`). So it is not so that a reader never turns into another save
(`lateLoad_empties_world`).

How the proof goes. The checks of a load depend on three answers of its source and on nothing else
(`loadFrom_congr`), so that a load through a reader whose store changes meanwhile is a load from one source
that never changes: the one that answers each question as the reader does at its moment (`lateSource`). What a
reader answers after some steps is known from the interleaving of the writers (`source_take`): its own
generation before another writer is closed, nothing after that. If the names are listed in time, an entry may
still be missing later, and then the load fails (`lateSource_of_quiet`, `parseSave_of_fading`). If they are
not, there are no entries to check (`loadFrom_of_no_names`).

The counterexample is computed from two saves: the first is read before the second writer is closed and after
(`reads_afterFirst`).
-/
namespace BlockWorld.World

open Grid Save

/-! ## Sources that lose entries -/

section Sources

variable {source g : Source}

/-- What the checks of a save depend on. -/
theorem loadFrom_congr (w : World) (h : parseSave source = parseSave g) :
    w.loadFrom source = w.loadFrom g := by
  rw [loadFrom, loadFrom, h]

theorem readFrom_congr (h : source.read Manifest.entryName = g.read Manifest.entryName) :
    Manifest.readFrom source = Manifest.readFrom g := by
  rw [Manifest.readFrom, Manifest.readFrom, h]

/-- A source that gives each entry as another one does, or not at all, passes only where that one
does. -/
theorem parseSave_of_fading (hmanifest : source.read Manifest.entryName = g.read Manifest.entryName)
    (hnames : source.names = g.names)
    (hreads : ∀ name data, source.read name = .ok data → g.read name = .ok data) {save : ParsedSave}
    (h : parseSave source = .ok save) : parseSave g = .ok save := by
  obtain ⟨hread, names, hlisted, hentries⟩ := parseSave_eq_ok h
  have hsame : parseEntries g [] names = .ok save.megachunks := by
    obtain ⟨hpassed, hnodup, hfresh⟩ := (parseEntries_eq_ok_iff ..).mp hentries
    refine (parseEntries_eq_ok_iff ..).mpr ⟨?_, hnodup, hfresh⟩
    rw [← hpassed]
    refine List.map_congr_left fun e he => ?_
    have hmem : passed? source e ∈ save.megachunks.map some := hpassed ▸ List.mem_map_of_mem he
    obtain ⟨p, -, hp⟩ := List.mem_map.mp hmem
    obtain ⟨hdata, hparse, hcoord⟩ := (passed?_eq_some_iff source e.1 e.2 p).mp hp.symm
    rw [← hp]
    exact (passed?_eq_some_iff g e.1 e.2 p).mpr ⟨hreads _ _ hdata, hparse, hcoord⟩
  have hequal : parseSave g = parseSave source := by
    simp only [parseSave, ← readFrom_congr hmanifest, ← hnames, hlisted, hentries, hsame]
  exact hequal.trans h

/-- A load from such a source gives what the other one holds, or fails. -/
theorem loadFrom_of_fading (w : World)
    (hmanifest : source.read Manifest.entryName = g.read Manifest.entryName)
    (hnames : source.names = g.names)
    (hreads : ∀ name data, source.read name = .ok data → g.read name = .ok data) :
    w.loadFrom source = w.loadFrom g
      ∨ ∃ e, (w.loadFrom source).1 = .error e ∧ w.Unchanged (w.loadFrom source).2 := by
  cases h : parseSave source with
  | ok save =>
    exact .inl (loadFrom_congr w (h.trans (parseSave_of_fading hmanifest hnames hreads h).symm))
  | error failure => exact .inr ⟨failure.1, loadFrom_of_error w h⟩

/-- A load from a source that lists no names succeeds if its manifest does not count any, and empties
the world. -/
theorem loadFrom_of_no_names (w : World) (hnames : source.names = .ok []) :
    ((w.loadFrom source).1 = .ok () ↔ ManifestFits source 0)
      ∧ ((w.loadFrom source).1 = .ok () → (w.loadFrom source).2.coords = [])
      ∧ ∀ e, (w.loadFrom source).1 = .error e → w.Unchanged (w.loadFrom source).2 := by
  have hloadable : Loadable source ↔ ManifestFits source 0 := by
    constructor
    · rintro ⟨names, hlisted, hfits, -⟩
      obtain rfl := Except.ok.inj (hnames.symm.trans hlisted)
      exact hfits
    · intro hfits
      exact ⟨[], hnames, hfits, by simp, .nil⟩
  rw [← hloadable, ← parseSave_ok_iff_loadable]
  cases h : parseSave source with
  | ok save =>
    have hok := (loadFrom_of_ok w h).1
    obtain ⟨-, names, hlisted, hentries⟩ := parseSave_eq_ok h
    obtain rfl := Except.ok.inj (hnames.symm.trans hlisted)
    have hnone : save.megachunks = [] := (Except.ok.inj hentries).symm
    refine ⟨iff_of_true hok ⟨save, rfl⟩, fun _ => ?_, fun e he => ?_⟩
    · refine List.eq_nil_iff_forall_not_mem.mpr fun c hc => ?_
      rw [mem_coords, table_loadFrom_isSome w h, hnone] at hc
      obtain ⟨p, hp, -⟩ := hc
      cases hp
    · cases hok.symm.trans he
  | error failure =>
    obtain ⟨herror, hsame⟩ := loadFrom_of_error w h
    refine ⟨iff_of_false (fun hok => ?_) fun ⟨_, hsave⟩ => ?_, fun hok => ?_, fun _ _ => hsame⟩
    · cases herror.symm.trans hok
    · cases hsave
    · cases herror.symm.trans hok

end Sources

/-! ## Loads among the steps of writers -/

/-- When a load asks its questions, counted in steps of the writers: for the manifest, for the names,
and for each entry. -/
structure Moments where
  manifest : Nat
  listing : Nat
  entry : String → Nat
  manifest_le : manifest ≤ listing
  listing_le : ∀ name, listing ≤ entry name

/-- When a load asks for the bytes under a name. -/
def Moments.reading (m : Moments) (name : String) : Nat :=
  if name = Manifest.entryName then m.manifest else m.entry name

/-- What a reader answers to a load that goes on while writers take steps. -/
def lateSource (t : Workshop) (r : GenerationReader) (later : List WriterStep) (m : Moments) :
    Source :=
  ⟨((t.run (later.take m.listing)).store.source r).names,
    fun name => ((t.run (later.take (m.reading name))).store.source r).read name⟩

/-- Steps that close no other writer than the one that was closed last before them. -/
def Quiet (l : Ledger) (steps : List WriterStep) : Prop := (l.run steps).latest = l.latest

instance (l : Ledger) (steps : List WriterStep) : Decidable (Quiet l steps) :=
  inferInstanceAs (Decidable (_ = _))

theorem Moments.reading_manifest (m : Moments) : m.reading Manifest.entryName = m.manifest :=
  if_pos rfl

section Late

variable {t : Workshop} {l : Ledger} {r : GenerationReader} {later : List WriterStep}

/-- What a reader answers after some of the steps. -/
theorem source_take (h : t.Follows l) (hr : t.store.newReader = .ok r)
    (hids : (t.writers.map (·.generation) ++ WriterStep.ids later).Nodup)
    (hplain : ∀ id ∈ WriterStep.ids later, Text.Uuid.IsPlain id) (n : Nat) :
    (t.run (later.take n)).store.source r
      = if Quiet l (later.take n) then t.store.source r else Generations.vacantSource := by
  have hsplit : WriterStep.ids later
      = WriterStep.ids (later.take n) ++ WriterStep.ids (later.drop n) := by
    rw [← WriterStep.ids_append, List.take_append_drop]
  rw [hsplit] at hids hplain
  rw [← List.append_assoc] at hids
  exact h.source_run hr (List.nodup_append.mp hids).1
    fun id hid => hplain id (List.mem_append_left _ hid)

/-- What was quiet up to a moment was so at all moments before. -/
theorem Quiet.of_le (h : t.Follows l) (hr : t.store.newReader = .ok r) {n k : Nat} (hnk : n ≤ k)
    (hquiet : Quiet l (later.take k)) : Quiet l (later.take n) := by
  obtain ⟨-, hnew⟩ | ⟨i, w, d, hi, -, hd, hclosed, -⟩ := h.newReader
  · cases hr.symm.trans hnew
  have hsplit : later.take k = later.take n ++ (later.take k).drop n := by
    have happend := List.take_append_drop n (later.take k)
    rw [List.take_take, Nat.min_eq_left hnk] at happend
    exact happend.symm
  rw [Quiet, hi] at hquiet ⊢
  rw [hsplit] at hquiet
  exact Ledger.latest_of_append hd hclosed _ _ hquiet

variable {m : Moments}

theorem lateSource_read (name : String) :
    (lateSource t r later m).read name
      = ((t.run (later.take (m.reading name))).store.source r).read name := rfl

/-- A reader whose generation was still there when its names were listed. -/
theorem lateSource_of_quiet (h : t.Follows l) (hr : t.store.newReader = .ok r)
    (hids : (t.writers.map (·.generation) ++ WriterStep.ids later).Nodup)
    (hplain : ∀ id ∈ WriterStep.ids later, Text.Uuid.IsPlain id)
    (hquiet : Quiet l (later.take m.listing)) :
    (lateSource t r later m).names = (t.store.source r).names
      ∧ (lateSource t r later m).read Manifest.entryName
        = (t.store.source r).read Manifest.entryName
      ∧ ∀ name data, (lateSource t r later m).read name = .ok data →
        (t.store.source r).read name = .ok data := by
  refine ⟨?_, ?_, fun name data hread => ?_⟩
  · rw [lateSource, source_take h hr hids hplain, if_pos hquiet]
  · rw [lateSource_read, m.reading_manifest, source_take h hr hids hplain,
      if_pos (hquiet.of_le h hr m.manifest_le)]
  · rw [lateSource_read, source_take h hr hids hplain] at hread
    split at hread
    · exact hread
    · cases hread

end Late

/-! ## A save that is lost -/

/-- A manifest that counts one megachunk. -/
def oneMegachunk : ByteArray :=
  "format: 1\nworld_id: 7f3c9a52-0000-4b1e-9d06-000000000001\nmegachunks: 1\n".toUTF8

/-- The entry of a megachunk without chunks. -/
def bareEntry : ByteArray := ⟨#[0, 0, 0, 0, 0, 0, 0, 0, 0, 0]⟩

/-- A writer that is given a save, and closed. -/
def firstSave : List WriterStep :=
  [.create (Text.Uuid.ofNat 0), .write 0 "level.yaml" oneMegachunk,
    .write 0 "megachunk_0_0_0.bin" bareEntry, .close 0]

/-- Another writer, which is closed too. -/
def secondSave : List WriterStep := [.create (Text.Uuid.ofNat 1), .close 1]

/-- The store and its writer after the first save. -/
def afterFirst : Workshop := Workshop.run ⟨Generations.empty.reopen, []⟩ firstSave

/-- A reader of the first save. -/
def firstReader : GenerationReader := ⟨1, Text.Uuid.ofNat 0⟩

theorem ids_saves : (WriterStep.ids (firstSave ++ secondSave)).Nodup
    ∧ ∀ id ∈ WriterStep.ids (firstSave ++ secondSave), Text.Uuid.IsPlain id := by
  decide +kernel

/-- Reads of the first save, before the second writer is closed and after. -/
theorem reads_afterFirst :
    afterFirst.store.newReader = .ok firstReader
      ∧ (afterFirst.store.source firstReader).names = .ok ["level.yaml", "megachunk_0_0_0.bin"]
      ∧ (afterFirst.store.source firstReader).read Manifest.entryName = .ok oneMegachunk
      ∧ (afterFirst.store.source firstReader).read "megachunk_0_0_0.bin" = .ok bareEntry
      ∧ (lateSource afterFirst firstReader secondSave
          ⟨2, 2, fun _ => 2, Nat.le_refl 2, fun _ => Nat.le_refl 2⟩).names = .ok []
      ∧ (lateSource afterFirst firstReader secondSave
          ⟨2, 2, fun _ => 2, Nat.le_refl 2, fun _ => Nat.le_refl 2⟩).read Manifest.entryName
        = .error (.absentEntry Manifest.entryName)
      ∧ ¬Quiet (Ledger.run .blank firstSave) (secondSave.take 2) := by
  decide +kernel

theorem newReader_afterFirst : afterFirst.store.newReader = .ok firstReader := reads_afterFirst.1

theorem parse?_entries : EntryName.parse? "level.yaml" = none
    ∧ EntryName.parse? "megachunk_0_0_0.bin" = some ⟨0, 0, 0⟩ ∧ Megachunk.decodeHeader bareEntry = ⟨0, 0, 0⟩ := by
  decide +kernel

theorem decode_oneMegachunk : Manifest.decode oneMegachunk
    = .ok ⟨1, "7f3c9a52-0000-4b1e-9d06-000000000001", 0, .zero, .zero, 1, ""⟩ := by
  decide +kernel

/-- The first save can be loaded, and has a megachunk. -/
theorem loadFrom_afterFirst (w : World) :
    (w.loadFrom (afterFirst.store.source firstReader)).1 = .ok ()
      ∧ ⟨0, 0, 0⟩ ∈ (w.loadFrom (afterFirst.store.source firstReader)).2.coords := by
  obtain ⟨-, hnames, hmanifest, hentry, -⟩ := reads_afterFirst
  obtain ⟨hother, hmega, hheader⟩ := parse?_entries
  have hparse : ["level.yaml", "megachunk_0_0_0.bin"].filterMap EntryName.parse? = [⟨0, 0, 0⟩] := by
    simp [hother, hmega]
  have hloadable : Loadable (afterFirst.store.source firstReader) := by
    refine ⟨_, hnames, ?_, fun name hname c hc => ?_, ?_⟩
    · obtain ⟨hparsed, hvalid⟩ := (Manifest.decode_eq_ok_iff ..).mp decode_oneMegachunk
      refine .inr ⟨_, _, hmanifest, hparsed, hvalid, ?_⟩
      rw [hparse]
      decide
    · rcases List.mem_pair.mp hname with rfl | rfl
      · cases hother.symm.trans hc
      · obtain rfl := Option.some.inj (hmega.symm.trans hc)
        exact ⟨bareEntry, hentry, ⟨0, rfl, by simp, by simp⟩, hheader⟩
    · rw [hparse]
      decide
  obtain ⟨save, hsave⟩ := (parseSave_ok_iff_loadable _).mpr hloadable
  refine ⟨(loadFrom_of_ok w hsave).1, ?_⟩
  obtain ⟨-, names, hlisted, hentries⟩ := parseSave_eq_ok hsave
  obtain rfl := Except.ok.inj (hnames.symm.trans hlisted)
  rw [mem_coords, table_loadFrom_isSome w hsave]
  have hmem : ⟨0, 0, 0⟩ ∈ save.megachunks.map (·.coord) := by
    rw [map_coord_parseEntries hentries, hparse]
    exact List.mem_singleton.mpr rfl
  exact List.mem_map.mp hmem

/-! ## What a late load does -/

/-- Loads through a reader while any writers take any steps. A load during which no other writer is
closed gives what the reader's generation had. If another writer is closed only after the names were
listed, it gives that or fails and leaves the world as it is. If one is closed before that, the load
succeeds exactly if it came too late for the manifest as well, or the generation's manifest is missing
or counts no megachunks; the world is then empty, whatever the generation had. -/
theorem lateLoad_spec {s : Generations} (hopen : s.isOpen = true) (hempty : s.database = .empty)
    {before later : List WriterStep} (hids : (WriterStep.ids (before ++ later)).Nodup)
    (hplain : ∀ id ∈ WriterStep.ids (before ++ later), Text.Uuid.IsPlain id)
    {r : GenerationReader} (hr : (Workshop.run ⟨s, []⟩ before).store.newReader = .ok r)
    (m : Moments) (w : World) :
    let l := Ledger.run .blank before
    let generation := (Workshop.run ⟨s, []⟩ before).store.source r
    let source := lateSource (Workshop.run ⟨s, []⟩ before) r later m
    ((∀ name, Quiet l (later.take (m.entry name))) →
        w.loadFrom source = w.loadFrom generation)
      ∧ (Quiet l (later.take m.listing) → w.loadFrom source = w.loadFrom generation
        ∨ ∃ e, (w.loadFrom source).1 = .error e ∧ w.Unchanged (w.loadFrom source).2)
      ∧ (¬Quiet l (later.take m.listing) →
        ((w.loadFrom source).1 = .ok ()
            ↔ ¬Quiet l (later.take m.manifest) ∨ ManifestFits generation 0)
          ∧ ((w.loadFrom source).1 = .ok () → (w.loadFrom source).2.coords = [])
          ∧ ∀ e, (w.loadFrom source).1 = .error e → w.Unchanged (w.loadFrom source).2) := by
  rw [WriterStep.ids_append] at hids hplain
  obtain ⟨hfollows, hgens⟩ := Workshop.follows_run (Workshop.follows_blank hopen hempty) before
    (List.nodup_append.mp hids).1 fun id hid => hplain id (List.mem_append_left _ hid)
  have hlater : ∀ id ∈ WriterStep.ids later, Text.Uuid.IsPlain id :=
    fun id hid => hplain id (List.mem_append_right _ hid)
  have hall : ((Workshop.run ⟨s, []⟩ before).writers.map (·.generation)
      ++ WriterStep.ids later).Nodup := by
    rw [hgens]
    exact hids
  have htake := source_take hfollows hr hall hlater
  refine ⟨fun hquiet => ?_, fun hquiet => ?_, fun hloud => ?_⟩
  · -- Nobody is closed before the last read, so every read is of the generation.
    have hlisting := (hquiet "").of_le hfollows hr (m.listing_le "")
    have hreads : ∀ name, Quiet (Ledger.run .blank before) (later.take (m.reading name)) := by
      intro name
      rw [Moments.reading]
      split
      · exact hlisting.of_le hfollows hr m.manifest_le
      · exact hquiet name
    have hsource : lateSource (Workshop.run ⟨s, []⟩ before) r later m
        = (Workshop.run ⟨s, []⟩ before).store.source r := by
      rw [lateSource, htake, if_pos hlisting]
      simp only [htake, if_pos (hreads _)]
    exact congrArg w.loadFrom hsource
  · obtain ⟨hnames, hmanifest, hreads⟩ := lateSource_of_quiet hfollows hr hall hlater hquiet
    exact loadFrom_of_fading w hmanifest hnames hreads
  · -- The names were gone when they were listed; only the manifest can still object.
    have hnames : (lateSource (Workshop.run ⟨s, []⟩ before) r later m).names = .ok [] := by
      rw [lateSource, htake, if_neg hloud]
      rfl
    obtain ⟨hok, hcoords, herror⟩ := loadFrom_of_no_names w hnames
    refine ⟨hok.trans ?_, hcoords, herror⟩
    have hread : (lateSource (Workshop.run ⟨s, []⟩ before) r later m).read Manifest.entryName
        = (if Quiet (Ledger.run .blank before) (later.take m.manifest) then
            (Workshop.run ⟨s, []⟩ before).store.source r else Generations.vacantSource).read
          Manifest.entryName := by
      rw [lateSource_read, m.reading_manifest, htake]
    by_cases hquiet : Quiet (Ledger.run .blank before) (later.take m.manifest)
    · rw [if_pos hquiet] at hread
      rw [ManifestFits, hread, or_iff_right (not_not_intro hquiet)]
      rfl
    · rw [if_neg hquiet] at hread
      exact iff_of_true (.inl ⟨_, hread, rfl⟩) (.inl hquiet)

/-- The manifest of the first save is read in time and its names are not. The load fails, because the
manifest counts a megachunk. -/
theorem lateLoad_spec_count :
    afterFirst.store.newReader = .ok firstReader
      ∧ (WriterStep.ids (firstSave ++ secondSave)).Nodup
      ∧ ((World.new 1 "" .zero "").loadFrom (lateSource afterFirst firstReader secondSave
        ⟨0, 2, fun _ => 2, Nat.zero_le 2, fun _ => Nat.le_refl 2⟩)).1 ≠ .ok () := by
  refine ⟨newReader_afterFirst, ids_saves.1, fun hok => ?_⟩
  have hspec := lateLoad_spec rfl rfl ids_saves.1 ids_saves.2 newReader_afterFirst
    ⟨0, 2, fun _ => 2, Nat.zero_le 2, fun _ => Nat.le_refl 2⟩ (World.new 1 "" .zero "")
  obtain ⟨-, -, hmanifest, -, -, -, hloud⟩ := reads_afterFirst
  rcases (hspec.2.2 hloud).1.mp hok with hlate | ⟨e, hread, -⟩ | ⟨data, m, hread, hparsed, hvalid, hm⟩
  · exact hlate rfl
  · have hboth := hmanifest.symm.trans hread
    generalize oneMegachunk = data at hboth
    cases hboth
  · obtain rfl := Except.ok.inj (hmanifest.symm.trans hread)
    have hdecode := (Manifest.decode_eq_ok_iff _ m).mpr ⟨hparsed, hvalid⟩
    obtain rfl := Except.ok.inj (decode_oneMegachunk.symm.trans hdecode)
    exact absurd hm (by decide)

/-- A load that begins after another writer was closed. The save that its reader was opened on has a
megachunk, and the load succeeds without it. -/
theorem lateLoad_empties_world :
    let w := World.new 1 "" .zero ""
    let late := lateSource afterFirst firstReader secondSave
      ⟨2, 2, fun _ => 2, Nat.le_refl 2, fun _ => Nat.le_refl 2⟩
    afterFirst.store.newReader = .ok firstReader
      ∧ (w.loadFrom (afterFirst.store.source firstReader)).1 = .ok ()
      ∧ ⟨0, 0, 0⟩ ∈ (w.loadFrom (afterFirst.store.source firstReader)).2.coords
      ∧ (w.loadFrom late).1 = .ok () ∧ (w.loadFrom late).2.coords = [] := by
  intro w late
  obtain ⟨-, -, -, -, hnames, hread, -⟩ := reads_afterFirst
  obtain ⟨hok, hcoords, -⟩ := loadFrom_of_no_names w hnames
  have hloaded := hok.mpr (.inl ⟨_, hread, rfl⟩)
  exact ⟨newReader_afterFirst, (loadFrom_afterFirst w).1, (loadFrom_afterFirst w).2, hloaded,
    hcoords hloaded⟩

end BlockWorld.World
