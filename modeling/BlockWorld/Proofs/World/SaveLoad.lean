import BlockWorld.Proofs.Manifest
import BlockWorld.Proofs.World.Saving
/-!
Loading what was saved. In every world that has come about by moves from a new one, the coordinates
of the megachunks can be negated and the identifier is well-formed (`Regular.run`), so that headers
and manifest can be written whenever the coordinates are small enough. An archive that holds such a
world has only entries that pass, as many as its manifest counts (`SavedAs.parseSave_ok`), and any
world that loads it holds the chunks that were saved, their damages rounded to bytes
(`SavedAs.chunkAt_loadFrom`). Rounding twice is rounding once, so saving again writes the same
entries.

How the proof goes.

* Saving. `Regular` is kept by edits, by unloading and by loading, so by every run (`Regular.run`). It makes a
  world one that is saved if and only if its coordinates are small enough (`Regular.saveTo_ok_iff`).
* Checking. The names in the archive that stand for megachunks are those of the world's, each once
  (`perm_coords`), and the entry behind such a name passes, with the chunks of the megachunk in it (`passed`).
  So all checks pass if the manifest is read back (`SavedAs.parseSave_ok`); that it is read back is a
  hypothesis here, on the text of the manifest.
* Comparing. What is loaded has the megachunks and, with damages rounded, the chunks that were saved. Its
  entries are the same bytes (`SavedAs.entry_loadFrom`), because the bytes of a chunk do not change when its
  damages are rounded.

`run_new_save_load` is the sum of the three, for any world that has come about by moves, loaded into any
other.
-/
namespace BlockWorld

open Grid Save

namespace World

/-! ## Regular worlds -/

/-- A world that can be saved as soon as its coordinates are small enough. -/
structure Regular (w : World) : Prop where
  owned : w.Owned
  negatable : ∀ c ∈ w.coords, c.Negatable
  id : Text.Uuid.isValid w.id = true

theorem regular_new {id : String} (hid : Text.Uuid.isValid id = true) (seed : Int64)
    (createdAt : Data.Timestamp) (compression : String) :
    (new seed id createdAt compression).Regular where
  owned := owned_new seed id createdAt compression
  negatable c hc := by
    rw [mem_coords, table_new] at hc
    cases hc
  id := hid

namespace Regular

variable {w : World}

theorem edit {w' : World} (he : Edit w w') (hw : w.Regular) : w'.Regular where
  owned := he.owned hw.owned
  negatable m hm := by
    cases he.table_isSome ((mem_coords _ m).mp hm) with
    | inl hbefore => exact hw.negatable m ((w.mem_coords m).mpr hbefore)
    | inr hmade =>
      obtain ⟨c, rfl⟩ := hmade
      exact c.negatable_parent
  id := he.sameName.1 ▸ hw.id

theorem reset (hw : w.Regular) : w.reset.Regular where
  owned := hw.owned.reset
  negatable c hc := by
    have hnone : w.reset.table c = none := congrFun w.table_cleared c
    rw [mem_coords, hnone] at hc
    cases hc
  id := hw.id

theorem unload (c : Coord) (hw : w.Regular) : (w.unload c).2.Regular where
  owned := hw.owned.unload c
  negatable c' hc' := by
    rw [mem_coords, table_unload] at hc'
    by_cases he : c' = c
    · rw [he, Table.set_self] at hc'
      cases hc'
    · rw [Table.set_other _ _ he] at hc'
      exact hw.negatable c' ((w.mem_coords c').mpr hc')
  id := w.id_unload c ▸ hw.id

theorem loadFrom (source : Source) (hw : w.Regular) : (w.loadFrom source).2.Regular := by
  cases h : parseSave source with
  | error e =>
    have hsame := (loadFrom_of_error w h).2
    refine ⟨hsame.storage.owned hw.owned, fun c hc => ?_, hsame.name.1 ▸ hw.id⟩
    rw [mem_coords, hsame.storage.table_eq, ← mem_coords] at hc
    exact hw.negatable c hc
  | ok save =>
    refine ⟨hw.owned.loadFrom source, fun c hc => ?_, ?_⟩
    · obtain ⟨p, hp, rfl⟩ := (table_loadFrom_isSome w h c).mp ((mem_coords _ c).mp hc)
      rw [Megachunk.parse_coord (parse_of_mem_megachunks h hp)]
      exact (Megachunk.inRange_decodeHeader p.data).negatable
    · rw [(loadFrom_adopts w h).1]
      cases hm : save.manifest with
      | none => exact hw.id
      | some m =>
        obtain ⟨data, -, hdecode⟩ := Manifest.readFrom_eq_some_iff.mp (hm ▸ (parseSave_eq_ok h).1)
        exact ((Manifest.decode_eq_ok_iff data m).mp hdecode).2.worldId

/-- Every world that has come about by moves from a regular one is regular. -/
theorem run (hw : w.Regular) (moves : List Move) : (Move.run moves w).Regular :=
  Move.run_keeps edit reset unload loadFrom moves hw

/-- A megachunk of a regular world can be written if and only if its coordinate is small enough. -/
theorem entry_ok_iff (hw : w.Regular) {c : Coord} (hc : c ∈ w.coords) :
    (∃ data, w.entry c = .ok data) ↔ c.InRange := by
  obtain ⟨m, hm⟩ := exists_table_of_mem hc
  have hcoord : m.coord = c := hw.owned.keyed c m hm
  rw [entry_of_table hm, ← Megachunk.encodeHeader_ok_iff (hw.negatable c hc), ← hcoord]
  constructor
  · rintro ⟨data, hdata⟩
    obtain ⟨header, hheader, -⟩ := Megachunk.toList_encode hdata
    exact ⟨header, hheader⟩
  · rintro ⟨header, hheader⟩
    exact ⟨_, Megachunk.encode_of_ok hheader w.arena⟩

end Regular

/-! ## Reading what was saved -/

namespace SavedAs

variable {w : World} {savedAt : Data.Timestamp} {a : MemoryArchive}

/-- The only names that stand for megachunks are those that were written. -/
theorem mem_entriesOf_iff (hs : w.SavedAs savedAt a) (name : String) (c : Coord) :
    (name, c) ∈ entriesOf a.entries.names ↔ c ∈ w.coords ∧ name = EntryName.ofCoord c := by
  rw [mem_entriesOf, Entries.mem_names]
  constructor
  · rintro ⟨hname, hparse⟩
    by_cases hold : ∃ c' ∈ w.coords, name = EntryName.ofCoord c'
    · obtain ⟨c', hc', rfl⟩ := hold
      rw [EntryName.parse?_ofCoord] at hparse
      obtain rfl := Option.some.inj hparse
      exact ⟨hc', rfl⟩
    · have hmanifest : name ≠ Manifest.entryName := by
        rintro rfl
        rw [EntryName.parse?_manifest] at hparse
        cases hparse
      rw [hs.others name hmanifest fun c' hc' he => hold ⟨c', hc', he⟩] at hname
      cases hname
  · rintro ⟨hc, rfl⟩
    obtain ⟨data, -, hget⟩ := hs.entries c hc
    exact ⟨by rw [hget]; rfl, EntryName.parse?_ofCoord c⟩

/-- The names that stand for megachunks stand for those of the world, each once. -/
theorem perm_coords (hs : w.SavedAs savedAt a) :
    (a.entries.names.filterMap EntryName.parse?).Perm w.coords := by
  have hnodup : (a.entries.names.filterMap EntryName.parse?).Nodup := by
    rw [List.Nodup, List.pairwise_filterMap]
    refine List.Pairwise.imp_of_mem ?_ hs.sorted.names_nodup
    intro name name' hname hname' hne c hc c' hc' he
    have h := (hs.mem_entriesOf_iff name c).mp (mem_entriesOf.mpr ⟨hname, hc⟩)
    have h' := (hs.mem_entriesOf_iff name' c').mp (mem_entriesOf.mpr ⟨hname', hc'⟩)
    rw [h.2, h'.2, he] at hne
    exact hne rfl
  refine (List.perm_ext_iff_of_nodup hnodup w.coords_nodup).mpr fun c => ?_
  rw [← map_snd_entriesOf, List.mem_map]
  constructor
  · rintro ⟨⟨name, c'⟩, he, rfl⟩
    exact ((hs.mem_entriesOf_iff name c').mp he).1
  · intro hc
    exact ⟨(EntryName.ofCoord c, c), (hs.mem_entriesOf_iff _ c).mpr ⟨hc, rfl⟩, rfl⟩

/-- The entry of a megachunk passes, and its chunks are those of the megachunk. -/
theorem passed (hs : w.SavedAs savedAt a) (hw : w.Regular) {c : Coord} (hc : c ∈ w.coords) :
    ∃ p, passed? a.source (EntryName.ofCoord c, c) = some p
      ∧ ∀ l, p.chunk? l = (w.chunkAt c l).map ChunkData.reloaded := by
  obtain ⟨data, hdata, hget⟩ := hs.entries c hc
  obtain ⟨m, hm⟩ := exists_table_of_mem hc
  have hcoord : m.coord = c := hw.owned.keyed c m hm
  rw [entry_of_table hm] at hdata
  obtain ⟨records, hparse, hchunks⟩ :=
    Megachunk.parse_encode (hw.owned.heldBy hm) (hcoord ▸ hw.negatable c hc) hdata
  rw [hcoord] at hparse
  refine ⟨⟨c, data, records⟩, (passed?_eq_some_iff ..).mpr ⟨?_, hparse, rfl⟩, fun l => ?_⟩
  · exact MemoryArchive.read_of_faultless hs.faultless hget
  · rw [chunkAt_of_table hm]
    exact hchunks l

/-- A saved world passes all checks of loading, if its manifest is read back. -/
theorem parseSave_ok (hs : w.SavedAs savedAt a) (hw : w.Regular)
    (hmanifest : Manifest.decode (w.manifest savedAt).encode = .ok (w.manifest savedAt)) :
    ∃ save, parseSave a.source = .ok save ∧ save.manifest = some (w.manifest savedAt) := by
  have hread : Manifest.readFrom a.source = .ok (some (w.manifest savedAt)) :=
    Manifest.readFrom_eq_some_iff.mpr
      ⟨_, MemoryArchive.read_of_faultless hs.faultless hs.manifest, hmanifest⟩
  have hperm := hs.perm_coords
  have hpass : ∃ save, parseSave a.source = .ok save := by
    refine (parseSave_ok_iff a.source).mpr ⟨_, _, hread,
      MemoryArchive.names_of_faultless hs.faultless, ?_, hperm.nodup_iff.mpr w.coords_nodup, ?_⟩
    · rintro ⟨name, c⟩ he
      obtain ⟨hc, rfl⟩ := (hs.mem_entriesOf_iff name c).mp he
      obtain ⟨p, hp, -⟩ := hs.passed hw hc
      rw [hp]
      rfl
    · intro m hm
      obtain rfl := Option.some.inj hm
      rw [hperm.length_eq, w.length_coords]
      rfl
  obtain ⟨save, hsave⟩ := hpass
  refine ⟨save, hsave, ?_⟩
  have hsame := (parseSave_eq_ok hsave).1.symm.trans hread
  exact Except.ok.inj hsame

section Load

variable {v : World} {save : ParsedSave}

theorem names_eq (hs : w.SavedAs savedAt a) {names : List String}
    (h : a.source.names = .ok names) : a.entries.names = names :=
  Except.ok.inj ((MemoryArchive.names_of_faultless hs.faultless).symm.trans h)

/-- The checked entries are those of the megachunks of the world. -/
theorem coord_of_mem (hs : w.SavedAs savedAt a) (h : parseSave a.source = .ok save)
    {p : ParsedMegachunk} (hp : p ∈ save.megachunks) :
    p.coord ∈ w.coords ∧ passed? a.source (EntryName.ofCoord p.coord, p.coord) = some p := by
  obtain ⟨names, name, hnames, hname, hparse, hpassed⟩ := passed_of_mem_megachunks h hp
  obtain rfl := hs.names_eq hnames
  obtain ⟨hc, rfl⟩ := (hs.mem_entriesOf_iff name p.coord).mp (mem_entriesOf.mpr ⟨hname, hparse⟩)
  exact ⟨hc, hpassed⟩

/-- Every megachunk of the world has a checked entry. -/
theorem exists_coord (hs : w.SavedAs savedAt a) (h : parseSave a.source = .ok save) {c : Coord}
    (hc : c ∈ w.coords) : ∃ p ∈ save.megachunks, p.coord = c := by
  obtain ⟨-, names, hnames, hps⟩ := parseSave_eq_ok h
  obtain rfl := hs.names_eq hnames
  have hmem : c ∈ save.megachunks.map (·.coord) := by
    rw [map_coord_parseEntries hps]
    exact hs.perm_coords.mem_iff.mpr hc
  exact List.mem_map.mp hmem

/-- A loaded world has the megachunks that were saved. -/
theorem mem_coords_loadFrom (hs : w.SavedAs savedAt a) (h : parseSave a.source = .ok save)
    (c : Coord) : c ∈ (v.loadFrom a.source).2.coords ↔ c ∈ w.coords := by
  rw [mem_coords, table_loadFrom_isSome v h]
  constructor
  · rintro ⟨p, hp, rfl⟩
    exact (hs.coord_of_mem h hp).1
  · exact hs.exists_coord h

/-- A loaded world has the chunks that were saved, with their damages rounded. -/
theorem chunkAt_loadFrom (hs : w.SavedAs savedAt a) (hw : w.Regular) (hv : v.Owned)
    (h : parseSave a.source = .ok save) (c : Coord) (l : Local) :
    (v.loadFrom a.source).2.chunkAt c l = (w.chunkAt c l).map ChunkData.reloaded := by
  rw [World.chunkAt_loadFrom hv h]
  cases hfind : save.megachunks.find? fun p => p.coord = c with
  | some p =>
    obtain rfl : p.coord = c := by simpa using List.find?_some hfind
    obtain ⟨hc, hpassed⟩ := hs.coord_of_mem h (List.mem_of_find?_eq_some hfind)
    obtain ⟨p', hpassed', hchunks⟩ := hs.passed hw hc
    obtain rfl : p = p' := Option.some.inj (hpassed.symm.trans hpassed')
    exact hchunks l
  | none =>
    -- No entry has the coordinate, so the world that was saved has no such megachunk.
    have hnone : w.table c = none := by
      cases hm : w.table c with
      | none => rfl
      | some m =>
        obtain ⟨p, hp, hcoord⟩ := hs.exists_coord h ((w.mem_coords c).mpr (by rw [hm]; rfl))
        exact absurd hcoord (by simpa using List.find?_eq_none.mp hfind p hp)
    rw [World.chunkAt, Table.chunk, Table.handle, hnone]
    rfl

/-- A loaded world is written as the world that was saved. -/
theorem entry_loadFrom (hs : w.SavedAs savedAt a) (hw : w.Regular) (hv : v.Owned)
    (h : parseSave a.source = .ok save) {c : Coord} (hc : c ∈ w.coords) :
    (v.loadFrom a.source).2.entry c = w.entry c := by
  have hv' := hv.loadFrom a.source
  obtain ⟨m, hm⟩ := exists_table_of_mem hc
  obtain ⟨m', hm'⟩ := exists_table_of_mem ((hs.mem_coords_loadFrom h c).mpr hc)
  rw [entry_of_table hm, entry_of_table hm']
  refine Megachunk.encode_reloaded (hw.owned.heldBy hm) (hv'.heldBy hm') ?_ fun l => ?_
  · exact (hv'.keyed c m' hm').trans (hw.owned.keyed c m hm).symm
  · rw [← chunkAt_of_table hm, ← chunkAt_of_table hm']
    exact hs.chunkAt_loadFrom hw hv h c l

end Load

end SavedAs

/-- Two worlds that are written alike are saved alike, but for the manifests. -/
theorem SavedAs.get?_eq {w w' : World} {savedAt savedAt' : Data.Timestamp} {a a' : MemoryArchive}
    (hs : w.SavedAs savedAt a) (hs' : w'.SavedAs savedAt' a')
    (hcoords : ∀ c, c ∈ w'.coords ↔ c ∈ w.coords) (hentry : ∀ c ∈ w.coords, w'.entry c = w.entry c)
    {name : String} (hname : name ≠ Manifest.entryName) :
    a'.entries.get? name = a.entries.get? name := by
  by_cases hold : ∃ c ∈ w.coords, name = EntryName.ofCoord c
  · obtain ⟨c, hc, rfl⟩ := hold
    obtain ⟨data, hdata, hget⟩ := hs.entries c hc
    obtain ⟨data', hdata', hget'⟩ := hs'.entries c ((hcoords c).mpr hc)
    rw [hentry c hc, hdata] at hdata'
    rw [hget, hget', Except.ok.inj hdata']
  · rw [hs.others name hname fun c hc he => hold ⟨c, hc, he⟩,
      hs'.others name hname fun c hc he => hold ⟨c, (hcoords c).mp hc, he⟩]

/-! ## Saving and loading -/

section Regular

variable {w : World} (hw : w.Regular) (savedAt : Data.Timestamp)
include hw

theorem Regular.entries_ok_iff :
    (∀ c ∈ w.coords, ∃ data, w.entry c = .ok data) ↔ ∀ c ∈ w.coords, c.InRange :=
  forall₂_congr fun _ hc => hw.entry_ok_iff hc

/-- A regular world is saved if and only if its coordinates are small enough. -/
theorem Regular.saveTo_ok_iff :
    (w.saveTo savedAt MemoryArchive.sink .empty).2.1 = .ok () ↔ ∀ c ∈ w.coords, c.InRange := by
  rw [← hw.entries_ok_iff]
  refine ⟨fun hok => ?_, fun h => (saveTo_of_ok w savedAt h).1⟩
  by_contra hnot
  obtain ⟨c, e, herror⟩ := saveTo_of_error w savedAt hnot
  rw [herror] at hok
  cases hok

/-- A regular world that is not saved is out of range. -/
theorem Regular.outOfRange_of_saveTo {e : SaveError}
    (he : (w.saveTo savedAt MemoryArchive.sink .empty).2.1 = .error e) :
    .outOfRange ∈ e.reasons := by
  have hnot : ¬∀ c ∈ w.coords, ∃ data, w.entry c = .ok data := by
    rw [hw.entries_ok_iff, ← hw.saveTo_ok_iff savedAt, he]
    exact fun h => nomatch h
  obtain ⟨c, e', herror⟩ := saveTo_of_error w savedAt hnot
  rw [herror] at he
  obtain rfl := Except.error.inj he
  exact List.mem_singleton.mpr rfl

theorem Regular.savedAs (hok : (w.saveTo savedAt MemoryArchive.sink .empty).2.1 = .ok ()) :
    w.SavedAs savedAt (w.saveTo savedAt MemoryArchive.sink .empty).1 :=
  (saveTo_of_ok w savedAt (hw.entries_ok_iff.mpr ((hw.saveTo_ok_iff savedAt).mp hok))).2

theorem Regular.manifest_valid (hcount : w.megachunkCount < 2 ^ 63) :
    (w.manifest savedAt).Valid where
  format := rfl
  worldId := hw.id
  count := by
    rw [Int64.le_iff_toInt_le]
    change (0 : Int64).toInt ≤ (Int64.ofNat w.megachunkCount).toInt
    rw [Int64.toInt_ofNat_of_lt hcount]
    exact Int.natCast_nonneg _

end Regular

/-- A loaded world is saved as the same entries. -/
theorem SavedAs.saveTo_loadFrom {w v : World} {savedAt : Data.Timestamp} {a : MemoryArchive}
    {save : ParsedSave} (hs : w.SavedAs savedAt a) (hw : w.Regular) (hv : v.Owned)
    (h : parseSave a.source = .ok save) (savedAt' : Data.Timestamp) :
    ((v.loadFrom a.source).2.saveTo savedAt' MemoryArchive.sink .empty).2.1 = .ok ()
      ∧ ∀ name ≠ Manifest.entryName,
        ((v.loadFrom a.source).2.saveTo savedAt' MemoryArchive.sink .empty).1.entries.get? name
          = a.entries.get? name := by
  have hcoords := fun c => hs.mem_coords_loadFrom (v := v) h c
  have hentry := fun c hc => hs.entry_loadFrom hw hv h (c := c) hc
  have hagain := saveTo_of_ok (v.loadFrom a.source).2 savedAt' fun c hc => by
    have hc' := (hcoords c).mp hc
    obtain ⟨data, hdata, -⟩ := hs.entries c hc'
    exact ⟨data, (hentry c hc').trans hdata⟩
  exact ⟨hagain.1, fun name hname => hs.get?_eq hagain.2 hcoords hentry hname⟩

section Block

variable (seed : Int64) (name : String) (createdAt : Data.Timestamp) (compression : String)
  (p : Coord) (id : Block.BlockId)

/-- A world in which one block was put has one megachunk. -/
theorem coords_setBlock_new :
    ((new seed name createdAt compression).setBlock p id).coords = [p.parent.parent] := by
  refine List.perm_singleton.mp
    ((List.perm_ext_iff_of_nodup (coords_nodup _) (List.nodup_singleton _)).mpr fun c => ?_)
  rw [mem_coords, table_setBlock_isSome, table_new, List.mem_singleton]
  simp

theorem manifest_setBlock_new (savedAt : Data.Timestamp) :
    ((new seed name createdAt compression).setBlock p id).manifest savedAt
      = ⟨1, name, seed, createdAt, savedAt, 1, compression⟩ := by
  obtain ⟨hname, hseed, hcreated, hcompression⟩ :=
    (edits_setBlock (new seed name createdAt compression) p id).sameName
  rw [manifest, hname, hseed, hcreated, hcompression, ← length_coords, coords_setBlock_new]
  rfl

end Block

/-- Saving and loading in every world that has come about by moves from a new one. It is saved if and
only if the coordinates of its megachunks have magnitudes of at most three bytes, and is told to be
out of range otherwise. The save can then be loaded into any other world, provided that the text of
its manifest is read back: identifier, seed, megachunks and chunks are those that were saved, where a
chunk keeps its blocks and whether it was generated, and its damages are rounded to bytes. Saving the
loaded world writes the same entries again. -/
theorem run_new_save_load {id : String} (hid : Text.Uuid.isValid id = true) (seed : Int64)
    (createdAt : Data.Timestamp) (compression : String) (moves : List Move)
    (savedAt : Data.Timestamp) :
    let w := Move.run moves (new seed id createdAt compression)
    let saved := w.saveTo savedAt MemoryArchive.sink .empty
    (saved.2.1 = .ok () ↔ ∀ c ∈ w.coords, c.InRange)
      ∧ (∀ e, saved.2.1 = .error e → .outOfRange ∈ e.reasons)
      ∧ (saved.2.1 = .ok () →
          -- The number of megachunks is a 64-bit integer in the manifest.
          w.megachunkCount < 2 ^ 63 →
          ((w.manifest savedAt).Valid →
            Manifest.decode (w.manifest savedAt).encode = .ok (w.manifest savedAt)) →
          ∀ (seed' : Int64) (id' : String) (createdAt' : Data.Timestamp) (compression' : String)
            (moves' : List Move),
          let v := Move.run moves' (new seed' id' createdAt' compression')
          let loaded := v.loadFrom saved.1.source
          loaded.1 = .ok ()
            ∧ loaded.2.id = w.id
            ∧ loaded.2.seed = w.seed
            ∧ (∀ c, c ∈ loaded.2.coords ↔ c ∈ w.coords)
            ∧ (∀ c, loaded.2.chunk? c = (w.chunk? c).map ChunkData.reloaded)
            ∧ ∀ savedAt' : Data.Timestamp,
              let again := loaded.2.saveTo savedAt' MemoryArchive.sink .empty
              again.2.1 = .ok ()
                ∧ ∀ name ≠ Manifest.entryName,
                  again.1.entries.get? name = saved.1.entries.get? name) := by
  intro w saved
  have hw : w.Regular := (regular_new hid seed createdAt compression).run moves
  refine ⟨hw.saveTo_ok_iff savedAt, fun e he => hw.outOfRange_of_saveTo savedAt he, ?_⟩
  intro hok hcount hyaml seed' id' createdAt' compression' moves' v loaded
  have hv : v.Owned := (owned_new seed' id' createdAt' compression').run moves'
  have hs : w.SavedAs savedAt saved.1 := hw.savedAs savedAt hok
  obtain ⟨save, hparse, hmanifest⟩ := hs.parseSave_ok hw (hyaml (hw.manifest_valid savedAt hcount))
  obtain ⟨hloadedId, hloadedSeed⟩ := loadFrom_adopts v hparse
  rw [hmanifest] at hloadedId hloadedSeed
  refine ⟨(loadFrom_of_ok v hparse).1, hloadedId, hloadedSeed, hs.mem_coords_loadFrom hparse,
    fun c => ?_, hs.saveTo_loadFrom hw hv hparse⟩
  rw [chunk?_eq_chunkAt, chunk?_eq_chunkAt]
  exact hs.chunkAt_loadFrom hw hv hparse c.parent c.place

/-- One block below zero is saved and loaded into a world that had another block. -/
theorem run_new_save_load_block :
    let w := (new 42 "7f3c9a52-0000-4b1e-9d06-000000000001" (.ofUnix 1700000000 0) "").setBlock
      ⟨-20, 5, 1000⟩ 7
    let saved := w.saveTo (.ofUnix 1700000001 0) MemoryArchive.sink .empty
    let loaded := ((new 7 "" .zero "").setBlock ⟨3, 3, 3⟩ 1).loadFrom saved.1.source
    saved.2.1 = .ok () ∧ loaded.1 = .ok () ∧ loaded.2.seed = 42
      ∧ (∀ c, c ∈ loaded.2.coords ↔ c = ⟨-1, 0, 3⟩)
      ∧ ∀ c, loaded.2.chunk? c = (w.chunk? c).map ChunkData.reloaded := by
  have hid : Text.Uuid.isValid "7f3c9a52-0000-4b1e-9d06-000000000001" = true := by decide +kernel
  have hparent : (⟨-20, 5, 1000⟩ : Coord).parent.parent = ⟨-1, 0, 3⟩ := by decide
  have hrun : ∀ (u : World) (p : Coord) (id : Block.BlockId),
      Move.run [.act (.setBlock p id)] u = u.setBlock p id := by
    simp only [Move.run, List.foldl_cons, List.foldl_nil, Move.apply, Action.apply, implies_true]
  have hcoords := coords_setBlock_new 42 "7f3c9a52-0000-4b1e-9d06-000000000001"
    (.ofUnix 1700000000 0) "" ⟨-20, 5, 1000⟩ 7
  have hmanifest := manifest_setBlock_new 42 "7f3c9a52-0000-4b1e-9d06-000000000001"
    (.ofUnix 1700000000 0) "" ⟨-20, 5, 1000⟩ 7 (.ofUnix 1700000001 0)
  have hyaml : Manifest.decode (Manifest.encode ⟨1, "7f3c9a52-0000-4b1e-9d06-000000000001", 42,
        .ofUnix 1700000000 0, .ofUnix 1700000001 0, 1, ""⟩)
      = .ok ⟨1, "7f3c9a52-0000-4b1e-9d06-000000000001", 42, .ofUnix 1700000000 0,
        .ofUnix 1700000001 0, 1, ""⟩ := by
    decide +kernel
  have h := run_new_save_load hid 42 (.ofUnix 1700000000 0) ""
    [.act (.setBlock ⟨-20, 5, 1000⟩ 7)] (.ofUnix 1700000001 0)
  have hload := fun hok hcount hyaml =>
    h.2.2 hok hcount hyaml 7 "" .zero "" [.act (.setBlock ⟨3, 3, 3⟩ 1)]
  rw [hparent] at hcoords
  simp only [hrun, hcoords, hmanifest, ← length_coords] at h hload
  have hok := h.1.mpr fun c hc => List.mem_singleton.mp hc ▸ by decide
  obtain ⟨hloaded, -, hseed, hmem, hchunks, -⟩ := hload hok (by decide) fun _ => hyaml
  exact ⟨hok, hloaded, hseed.trans (edits_setBlock _ _ _).sameName.2.1,
    fun c => (hmem c).trans List.mem_singleton, hchunks⟩

end World

end BlockWorld
