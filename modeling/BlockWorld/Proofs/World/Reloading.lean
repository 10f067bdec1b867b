import Mathlib
import BlockWorld.Proofs.World.SaveLoad
/-!
A load depends on the archive only. Two archives with the same contents may list their entries in
different orders, and may be loaded into worlds with different pasts: other blocks, marks and free
slots. The checked entries are then the same up to their order (`SameContents.perm_megachunks`), and
since their coordinates differ from each other the order is not seen in the chunks. Nothing of what
the slots held before is seen either (`pristine_loadFrom`); the slots themselves are never given up.

How the proof goes. `Save.Source.SameContents` is symmetric, so it is enough to show one direction: if a load
from the one source succeeds, then so does one from the other (`parseSave_ok`), with the same entries in
another order (`perm_megachunks`). The chunk at a place is looked up among the entries by coordinate, and
coordinates differ, so the order does not change what is found (`chunk?_two_loads`). For the arena there is an
account: each record takes one slot (`arena_placeRecords`), and a load gives all slots back before it takes
any; so as many are in use as there are records (`sum_records`), and there are never fewer slots than before
(`arena_loadFrom`).
-/
namespace BlockWorld

open Grid Save World

/-! ## Archives with the same contents -/

/-- Two sources that list the same names, in whatever order, with the same bytes behind each. -/
structure Save.Source.SameContents (s t : Source) : Prop where
  names : ∃ ns nt, s.names = .ok ns ∧ t.names = .ok nt ∧ ns.Perm nt
  read : ∀ name data, s.read name = .ok data ↔ t.read name = .ok data
  absent : ∀ name, (∃ e, s.read name = .error e ∧ e.isAbsent = true)
    ↔ ∃ e, t.read name = .error e ∧ e.isAbsent = true

namespace Save.Source.SameContents

variable {s t : Source} (h : s.SameContents t)
include h

theorem symm : t.SameContents s := by
  obtain ⟨ns, nt, hs, ht, hperm⟩ := h.names
  exact ⟨⟨nt, ns, ht, hs, hperm.symm⟩, fun name data => (h.read name data).symm,
    fun name => (h.absent name).symm⟩

theorem passed?_eq (e : String × Coord) : passed? s e = passed? t e := by
  apply Option.ext
  intro p
  rw [passed?_eq_some_iff, passed?_eq_some_iff, h.read]

theorem readFrom_ok {m : Option Manifest} (hm : Manifest.readFrom s = .ok m) :
    Manifest.readFrom t = .ok m := by
  cases m with
  | none =>
    rw [Manifest.readFrom_eq_none_iff] at hm ⊢
    exact (h.absent _).mp hm
  | some m =>
    rw [Manifest.readFrom_eq_some_iff] at hm ⊢
    obtain ⟨data, hdata, hdecode⟩ := hm
    exact ⟨data, (h.read _ _).mp hdata, hdecode⟩

theorem parseSave_ok {save : ParsedSave} (hs : parseSave s = .ok save) :
    ∃ save', parseSave t = .ok save' := by
  obtain ⟨ns, nt, hns, hnt, hperm⟩ := h.names
  obtain ⟨manifest, names, hmanifest, hnames, hpass, hnodup, hcount⟩ :=
    (parseSave_ok_iff s).mp ⟨save, hs⟩
  obtain rfl := Except.ok.inj (hns.symm.trans hnames)
  have hentries : (entriesOf ns).Perm (entriesOf nt) := hperm.filterMap _
  have hcoords : (ns.filterMap EntryName.parse?).Perm (nt.filterMap EntryName.parse?) :=
    hperm.filterMap _
  refine (parseSave_ok_iff t).mpr ⟨manifest, nt, h.readFrom_ok hmanifest, hnt, ?_,
    hcoords.nodup_iff.mp hnodup, ?_⟩
  · intro e he
    rw [← h.passed?_eq]
    exact hpass e (hentries.mem_iff.mpr he)
  · intro m hm
    rw [hcount m hm, hcoords.length_eq]

/-- The checked entries are the same up to their order. -/
theorem perm_megachunks {save save' : ParsedSave} (hs : parseSave s = .ok save)
    (ht : parseSave t = .ok save') :
    save'.manifest = save.manifest ∧ save.megachunks.Perm save'.megachunks := by
  obtain ⟨ns, nt, hns, hnt, hperm⟩ := h.names
  obtain ⟨hread, names, hnames, hparsed⟩ := parseSave_eq_ok hs
  obtain ⟨hread', names', hnames', hparsed'⟩ := parseSave_eq_ok ht
  obtain rfl := Except.ok.inj (hns.symm.trans hnames)
  obtain rfl := Except.ok.inj (hnt.symm.trans hnames')
  have hmap := ((parseEntries_eq_ok_iff ..).mp hparsed).1
  have hmap' := ((parseEntries_eq_ok_iff ..).mp hparsed').1
  have hentries : (entriesOf ns).Perm (entriesOf nt) := hperm.filterMap _
  have hsome : (save.megachunks.map some).Perm (save'.megachunks.map some) := by
    rw [← hmap, ← hmap', funext h.passed?_eq]
    exact hentries.map _
  refine ⟨Except.ok.inj (hread'.symm.trans (h.readFrom_ok hread)), ?_⟩
  simpa using hsome.filterMap (fun p => p)

end Save.Source.SameContents

namespace World

/-! ## Slots -/

/-- The number of records behind a name. -/
def recordsIn (source : Source) (name : String) : Nat :=
  match source.read name with
  | .ok data => (data.size - Megachunk.headerSize) / Megachunk.recordSize
  | .error _ => 0

/-- The number of records behind all names that stand for megachunks. -/
def totalRecords (source : Source) (names : List String) : Nat :=
  ((entriesOf names).map fun e => recordsIn source e.1).sum

/-- Each record takes one slot, and no slot is given up. -/
theorem arena_placeRecords (data : ByteArray) (records : List Megachunk.Record) (m : Megachunk)
    (a : Arena) :
    (records.foldl (Megachunk.placeRecord data) (m, a)).2.live = a.live + records.length
      ∧ a.size ≤ (records.foldl (Megachunk.placeRecord data) (m, a)).2.size := by
  induction records generalizing m a with
  | nil => exact ⟨rfl, Nat.le_refl _⟩
  | cons r records ih =>
    obtain ⟨m', a', hplaced⟩ : ∃ m' a', Megachunk.placeRecord data (m, a) r = (m', a') :=
      ⟨_, _, rfl⟩
    have harena : a' = (Megachunk.placeRecord data (m, a) r).2 := by rw [hplaced]
    have hlive : a'.live = a.live + 1 := by
      rw [harena, Megachunk.placeRecord, Arena.live_modify, Arena.live_allocate]
    have hsize : a.size ≤ a'.size := by
      rw [harena, Megachunk.placeRecord, Arena.size_modify]
      exact a.size_le_allocate
    obtain ⟨hlive', hsize'⟩ := ih m' a'
    rw [List.foldl_cons, hplaced]
    refine ⟨?_, hsize.trans hsize'⟩
    rw [hlive', hlive, List.length_cons]
    omega

theorem arena_placeAll (ps : List ParsedMegachunk) (w : World) :
    (ps.foldl place w).arena.live = w.arena.live + (ps.map (·.records.length)).sum
      ∧ w.arena.size ≤ (ps.foldl place w).arena.size := by
  induction ps generalizing w with
  | nil => exact ⟨rfl, Nat.le_refl _⟩
  | cons p ps ih =>
    obtain ⟨hlive, hsize⟩ := arena_placeRecords p.data p.records (.empty p.coord) w.arena
    obtain ⟨hlive', hsize'⟩ := ih (w.place p)
    have harena : (w.place p).arena
        = (p.records.foldl (Megachunk.placeRecord p.data) (.empty p.coord, w.arena)).2 := rfl
    rw [harena] at hlive' hsize'
    rw [List.foldl_cons, List.map_cons, List.sum_cons]
    exact ⟨by rw [hlive', hlive, Nat.add_assoc], hsize.trans hsize'⟩

section Load

variable {source : Source} {save : ParsedSave}

/-- As many slots are in use as there are records. -/
theorem sum_records {names : List String} (hnames : source.names = .ok names)
    (h : parseSave source = .ok save) :
    (save.megachunks.map (·.records.length)).sum = totalRecords source names := by
  obtain ⟨-, names', hnames', hparsed⟩ := parseSave_eq_ok h
  obtain rfl := Except.ok.inj (hnames.symm.trans hnames')
  have hmap := ((parseEntries_eq_ok_iff ..).mp hparsed).1
  rw [totalRecords]
  generalize entriesOf names = es at hmap
  generalize save.megachunks = ps at hmap
  induction es generalizing ps with
  | nil => simp [List.map_eq_nil_iff.mp hmap.symm]
  | cons e es ih =>
    cases ps with
    | nil => cases hmap
    | cons p ps =>
      obtain ⟨hp, hrest⟩ := List.cons.inj hmap
      obtain ⟨hread, hparse, -⟩ := (passed?_eq_some_iff source e.1 e.2 p).mp hp
      have hcount : recordsIn source e.1 = p.records.length := by
        rw [recordsIn, hread, Megachunk.length_of_parse hparse]
      simp only [List.map_cons, List.sum_cons, hcount, ih ps hrest]

theorem arena_loadFrom (w : World) {names : List String} (hnames : source.names = .ok names)
    (h : parseSave source = .ok save) :
    (w.loadFrom source).2.arena.live = totalRecords source names
      ∧ w.arena.size ≤ (w.loadFrom source).2.arena.size := by
  obtain ⟨hlive, hsize⟩ := arena_placeAll save.megachunks w.cleared
  have hcleared : w.cleared.arena = w.arena.clear := rfl
  have hempty : w.arena.clear.live = 0 := rfl
  rw [hcleared, hempty, Nat.zero_add, sum_records hnames h] at hlive
  rw [hcleared, Arena.size_clear] at hsize
  rw [(loadFrom_of_ok w h).2.2]
  exact ⟨hlive, hsize⟩

/-! ## Two loads -/

theorem loadFrom_ok_iff (w : World) (source : Source) :
    (w.loadFrom source).1 = .ok () ↔ ∃ save, parseSave source = .ok save := by
  cases h : parseSave source with
  | ok save => exact ⟨fun _ => ⟨save, rfl⟩, fun _ => (loadFrom_of_ok w h).1⟩
  | error e =>
    rw [(loadFrom_of_error w h).1]
    simp

/-- Worlds with the same megachunks list them alike. -/
theorem coords_eq {w v : World} (h : ∀ c, c ∈ w.coords ↔ c ∈ v.coords) : w.coords = v.coords := by
  have hperm : w.coords.Perm v.coords :=
    (List.perm_ext_iff_of_nodup w.coords_nodup v.coords_nodup).mpr h
  have hsorted : ∀ u : World, u.coords.Pairwise fun p q => p.le q = true := by
    intro u
    exact List.pairwise_mergeSort Coord.le_trans Coord.le_total _
  exact hperm.eq_of_pairwise (fun _ _ _ _ => Coord.le_antisymm) (hsorted w) (hsorted v)

end Load

section TwoLoads

variable {s t : Source} {save save' : ParsedSave} {w v : World}

theorem mem_coords_two_loads (hperm : save.megachunks.Perm save'.megachunks)
    (hs : parseSave s = .ok save) (ht : parseSave t = .ok save') (c : Coord) :
    c ∈ (w.loadFrom s).2.coords ↔ c ∈ (v.loadFrom t).2.coords := by
  simp only [mem_coords, table_loadFrom_isSome w hs, table_loadFrom_isSome v ht, hperm.mem_iff]

theorem chunk?_two_loads (hw : w.Owned) (hv : v.Owned)
    (hperm : save.megachunks.Perm save'.megachunks) (hs : parseSave s = .ok save)
    (ht : parseSave t = .ok save') (c : Coord) :
    (w.loadFrom s).2.chunk? c = (v.loadFrom t).2.chunk? c := by
  have hnodup := (placeable_cleared w hs).coords
  have hnodup' := (placeable_cleared v ht).coords
  have hfind : (save.megachunks.find? fun p => p.coord = c.parent)
      = save'.megachunks.find? fun p => p.coord = c.parent := by
    apply Option.ext
    intro p
    rw [find?_key_eq_some_iff hnodup, find?_key_eq_some_iff hnodup', hperm.mem_iff]
  rw [chunk?_eq_chunkAt, chunk?_eq_chunkAt, chunkAt_loadFrom hw hs, chunkAt_loadFrom hv ht, hfind]

end TwoLoads

/-- What a world is called after a load: by the manifest, if there is one, or as before. -/
structure NamedBy (m : Option Manifest) (w w' : World) : Prop where
  id : w'.id = (m.map (·.worldId)).getD w.id
  seed : w'.seed = (m.map (·.seed)).getD w.seed
  createdAt : w'.createdAt = (m.map (·.createdAt)).getD w.createdAt

theorem namedBy_loadFrom (w : World) {source : Source} {save : ParsedSave}
    (h : parseSave source = .ok save) : NamedBy save.manifest w (w.loadFrom source).2 where
  id := (loadFrom_adopts w h).1
  seed := (loadFrom_adopts w h).2
  createdAt := createdAt_loadFrom w h

/-! ## Two orders of two entries -/

/-- The bytes of a megachunk with one chunk of air at its first place. -/
def oneRecord : ByteArray :=
  ⟨Array.replicate (Megachunk.headerSize + Megachunk.recordSize) 0⟩

/-- The bytes of a megachunk without chunks. -/
def noRecord : ByteArray := ⟨#[0, 0, 0, 1, 0, 0, 0, 0, 0, 0]⟩

/-- An archive of two megachunks that lists them in a given order. -/
def twoEntries (names : List String) : Source where
  names := .ok names
  read name :=
    if name = EntryName.ofCoord ⟨0, 0, 0⟩ then .ok oneRecord
    else if name = EntryName.ofCoord ⟨1, 0, 0⟩ then .ok noRecord
    else .error .absent

theorem sameContents_twoEntries {ns nt : List String} (hperm : ns.Perm nt) :
    (twoEntries ns).SameContents (twoEntries nt) :=
  ⟨⟨ns, nt, rfl, rfl, hperm⟩, fun _ _ => Iff.rfl, fun _ => Iff.rfl⟩

theorem parseSave_twoEntries :
    ∃ save, parseSave (twoEntries [EntryName.ofCoord ⟨0, 0, 0⟩, EntryName.ofCoord ⟨1, 0, 0⟩])
      = .ok save := by
  have hne : EntryName.ofCoord ⟨1, 0, 0⟩ ≠ EntryName.ofCoord ⟨0, 0, 0⟩ := fun he =>
    absurd (EntryName.ofCoord_injective he) (by decide)
  have hentries : entriesOf [EntryName.ofCoord ⟨0, 0, 0⟩, EntryName.ofCoord ⟨1, 0, 0⟩]
      = [(EntryName.ofCoord ⟨0, 0, 0⟩, ⟨0, 0, 0⟩), (EntryName.ofCoord ⟨1, 0, 0⟩, ⟨1, 0, 0⟩)] := by
    simp [entriesOf, EntryName.parse?_ofCoord]
  have hone : Megachunk.parse oneRecord = .ok (⟨0, 0, 0⟩, [⟨⟨0, 0, 0⟩, false, 14⟩]) := by
    decide +kernel
  have hnone : Megachunk.parse noRecord = .ok (⟨1, 0, 0⟩, []) := by
    decide +kernel
  refine (parseSave_ok_iff _).mpr ⟨none, _, ?_, rfl, ?_, ?_, ?_⟩
  · have hother := fun c => (EntryName.ofCoord_ne_manifest c).symm
    refine Manifest.readFrom_eq_none_iff.mpr ⟨.absent, ?_, by decide⟩
    simp only [twoEntries, hother, if_false]
  · rw [hentries]
    simp [passed?, twoEntries, hne, hone, hnone]
  · rw [← map_snd_entriesOf, hentries]
    decide
  · intro m hm
    cases hm

/-! ## Archives loaded into two worlds -/

/-- Two worlds with any pasts load two archives with the same contents. One load succeeds if and
only if the other does. Both worlds then have the same megachunks and the same chunks, of which
nothing is remembered but blocks, damages and marks. Names, seeds and times of creation are those of
the manifest, or else stay. No slot is given up, and as many are in use as there are records. -/
theorem run_new_loadFrom_two (seed seed' : Int64) (id id' : String)
    (createdAt createdAt' : Data.Timestamp) (compression compression' : String)
    (moves moves' : List Move) {s t : Source} (hsame : s.SameContents t) :
    let w := Move.run moves (.new seed id createdAt compression)
    let v := Move.run moves' (.new seed' id' createdAt' compression')
    let w' := (w.loadFrom s).2
    let v' := (v.loadFrom t).2
    ((w.loadFrom s).1 = .ok () ↔ (v.loadFrom t).1 = .ok ())
      ∧ ((w.loadFrom s).1 = .ok () →
        w'.coords = v'.coords
          ∧ (∀ c, w'.chunk? c = v'.chunk? c)
          ∧ (∀ c d, w'.chunk? c = some d → d.Pristine)
          ∧ ∃ manifest names, Manifest.readFrom s = .ok manifest ∧ s.names = .ok names
            ∧ NamedBy manifest w w' ∧ NamedBy manifest v v'
            ∧ w.arena.size ≤ w'.arena.size ∧ v.arena.size ≤ v'.arena.size
            ∧ w'.arena.live = totalRecords s names ∧ v'.arena.live = totalRecords s names) := by
  intro w v w' v'
  have hw : w.Owned := (owned_new seed id createdAt compression).run moves
  have hv : v.Owned := (owned_new seed' id' createdAt' compression').run moves'
  constructor
  · rw [loadFrom_ok_iff, loadFrom_ok_iff]
    exact ⟨fun ⟨_, hs⟩ => hsame.parseSave_ok hs, fun ⟨_, ht⟩ => hsame.symm.parseSave_ok ht⟩
  · intro hok
    obtain ⟨save, hs⟩ := (loadFrom_ok_iff w s).mp hok
    obtain ⟨save', ht⟩ := hsame.parseSave_ok hs
    obtain ⟨hmanifest, hperm⟩ := hsame.perm_megachunks hs ht
    obtain ⟨hread, names, hnames, -⟩ := parseSave_eq_ok hs
    obtain ⟨-, names', hnames', -⟩ := parseSave_eq_ok ht
    obtain ⟨hlive, hsize⟩ := arena_loadFrom w hnames hs
    obtain ⟨hlive', hsize'⟩ := arena_loadFrom v hnames' ht
    have htotal : totalRecords t names' = totalRecords s names := by
      rw [← sum_records hnames hs, ← sum_records hnames' ht]
      exact ((hperm.map _).sum_eq).symm
    refine ⟨coords_eq (mem_coords_two_loads hperm hs ht), chunk?_two_loads hw hv hperm hs ht,
      fun c d hd => pristine_loadFrom hw hs hd, save.manifest, names, hread, hnames,
      namedBy_loadFrom w hs, ?_, hsize, hsize', hlive, hlive'.trans htotal⟩
    rw [← hmanifest]
    exact namedBy_loadFrom v ht

/-- Two megachunks, listed in two orders, are loaded into a new world and into one with a block. -/
theorem run_new_loadFrom_two_orders :
    let first := EntryName.ofCoord ⟨0, 0, 0⟩
    let second := EntryName.ofCoord ⟨1, 0, 0⟩
    let w := Move.run [] (.new 1 "" .zero "")
    let v := Move.run [.act (.setBlock ⟨3, 3, 3⟩ 7)] (.new 2 "" .zero "")
    (twoEntries [first, second]).SameContents (twoEntries [second, first])
      ∧ (w.loadFrom (twoEntries [first, second])).1 = .ok ()
      ∧ (v.loadFrom (twoEntries [second, first])).1 = .ok ()
      ∧ ∀ c, (w.loadFrom (twoEntries [first, second])).2.chunk? c
        = (v.loadFrom (twoEntries [second, first])).2.chunk? c := by
  intro first second w v
  have hsame := sameContents_twoEntries (List.Perm.swap second first [])
  obtain ⟨hboth, hloaded⟩ := run_new_loadFrom_two 1 2 "" "" .zero .zero "" "" []
    [.act (.setBlock ⟨3, 3, 3⟩ 7)] hsame
  have hok : (w.loadFrom (twoEntries [first, second])).1 = .ok () :=
    (loadFrom_ok_iff w _).mpr parseSave_twoEntries
  exact ⟨hsame, hok, hboth.mp hok, (hloaded hok).2.1⟩

end World

end BlockWorld
