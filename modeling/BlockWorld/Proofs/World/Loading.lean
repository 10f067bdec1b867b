import BlockWorld.Proofs.World.Edits
import BlockWorld.Proofs.World.Placement
/-!
Loading a save. The entries of a save are checked one after the other: `parseEntries_eq_ok_iff` says
which lists of entries pass and what comes out. A load that succeeds puts exactly the checked entries
into the world; one that fails changes nothing but the books.

How the proof goes. The names of a save that stand for megachunks are picked out first (`entriesOf`). The
check goes through them and carries the coordinates that it has met; `parseEntries_eq_ok_iff` is the
induction, on the names left: they pass if each of them does (`passed?`) and the coordinates differ from each
other and from those carried along. So all names pass if and only if each does and no megachunk comes twice
(`parseEntries_ok_iff`).

Only then is the world changed. It is emptied (`cleared`), and the checked entries can be placed in it since
their coordinates differ (`placeable_cleared`). Chunks, megachunks and ownership afterwards are those of
placing (`chunkAt_loadFrom`, `table_loadFrom_isSome`, `Owned.loadFrom`).
-/
namespace BlockWorld.World

open Grid Save

/-! ## Entries -/

/-- The names of a save that stand for megachunks, with the megachunks. -/
def entriesOf (names : List String) : List (String × Coord) :=
  names.filterMap fun name => (EntryName.parse? name).map (name, ·)

/-- An entry that can be read, is well-formed, and holds the megachunk that its name says. -/
def passed? (source : Source) (e : String × Coord) : Option ParsedMegachunk :=
  match source.read e.1 with
  | .error _ => none
  | .ok data =>
    match Megachunk.parse data with
    | .error _ => none
    | .ok (held, records) => if held = e.2 then some ⟨e.2, data, records⟩ else none

theorem entriesOf_cons_of_none {name : String} (hn : EntryName.parse? name = none)
    (names : List String) : entriesOf (name :: names) = entriesOf names := by
  rw [entriesOf, List.filterMap_cons, hn]
  rfl

theorem entriesOf_cons_of_some {name : String} {c : Coord} (hn : EntryName.parse? name = some c)
    (names : List String) : entriesOf (name :: names) = (name, c) :: entriesOf names := by
  rw [entriesOf, List.filterMap_cons, hn]
  rfl

theorem mem_entriesOf {names : List String} {name : String} {c : Coord} :
    (name, c) ∈ entriesOf names ↔ name ∈ names ∧ EntryName.parse? name = some c := by
  simp only [entriesOf, List.mem_filterMap, Option.map_eq_some_iff, Prod.mk.injEq]
  constructor
  · rintro ⟨n, hn, c', hc, rfl, rfl⟩
    exact ⟨hn, hc⟩
  · rintro ⟨hn, hc⟩
    exact ⟨name, hn, c, hc, rfl, rfl⟩

theorem map_snd_entriesOf (names : List String) :
    (entriesOf names).map (·.2) = names.filterMap EntryName.parse? := by
  rw [entriesOf, List.map_filterMap]
  refine List.filterMap_congr fun name _ => ?_
  cases EntryName.parse? name <;> rfl

/-- When an entry passes. -/
theorem passed?_eq_some_iff (source : Source) (name : String) (c : Coord)
    (p : ParsedMegachunk) :
    passed? source (name, c) = some p
      ↔ source.read name = .ok p.data ∧ Megachunk.parse p.data = .ok (c, p.records)
        ∧ p.coord = c := by
  rw [passed?]
  constructor
  · intro h
    split at h
    · cases h
    · rename_i data hread
      split at h
      · cases h
      · rename_i held records hparse
        split at h
        · rename_i he
          obtain rfl := Option.some.inj h
          rw [he] at hparse
          exact ⟨hread, hparse, rfl⟩
        · cases h
  · rintro ⟨hread, hparse, rfl⟩
    simp only [hread, hparse, if_true]

theorem parseEntry_eq_ok_iff (source : Source) (seen : List Coord) (name : String) (c : Coord)
    (p : ParsedMegachunk) :
    parseEntry source seen name c = .ok p
      ↔ passed? source (name, c) = some p ∧ c ∉ seen := by
  rw [passed?_eq_some_iff, parseEntry]
  constructor
  · intro h
    split at h
    · cases h
    · rename_i data hread
      split at h
      · cases h
      · rename_i held records hparse
        split at h
        · cases h
        · rename_i he
          split at h
          · cases h
          · rename_i hseen
            obtain rfl := Except.ok.inj h
            obtain rfl := Decidable.not_not.mp he
            exact ⟨⟨hread, hparse, rfl⟩, hseen⟩
  · rintro ⟨⟨hread, hparse, rfl⟩, hseen⟩
    simp only [hread, hparse, ne_eq, not_true_eq_false, if_false, if_neg hseen]

/-- The entries of a save pass if each of them does and they are for different megachunks, none of
which was there before. -/
theorem parseEntries_eq_ok_iff (source : Source) (seen : List Coord) (names : List String)
    (ps : List ParsedMegachunk) :
    parseEntries source seen names = .ok ps
      ↔ (entriesOf names).map (passed? source) = ps.map some
        ∧ (ps.map (·.coord)).Nodup ∧ ∀ p ∈ ps, p.coord ∉ seen := by
  induction names generalizing seen ps with
  | nil => cases ps <;> simp [parseEntries, entriesOf]
  | cons name names ih =>
    rw [parseEntries]
    cases hn : EntryName.parse? name with
    | none => rw [entriesOf_cons_of_none hn]; exact ih seen ps
    | some c =>
      rw [entriesOf_cons_of_some hn, List.map_cons]
      cases ps with
      | nil =>
        simp only [List.map_nil, reduceCtorEq, false_and, iff_false]
        intro h
        split at h
        · cases h
        · split at h <;> cases h
      | cons p ps =>
        have hhead := parseEntry_eq_ok_iff source seen name c p
        have hrest := ih (c :: seen) ps
        simp only [List.map_cons, List.cons.injEq, List.nodup_cons, List.mem_map, List.mem_cons,
          forall_eq_or_imp, not_exists, not_and, not_or] at hrest ⊢
        constructor
        · intro h
          split at h
          · cases h
          · rename_i q hq
            split at h
            · cases h
            · rename_i others hothers
              obtain ⟨rfl, rfl⟩ := List.cons.inj (Except.ok.inj h)
              obtain ⟨hchecked, hseen⟩ := hhead.mp hq
              obtain ⟨-, -, rfl⟩ := (passed?_eq_some_iff ..).mp hchecked
              obtain ⟨hmap, hnodup, hnew⟩ := hrest.mp hothers
              exact ⟨⟨hchecked, hmap⟩, ⟨fun p hp => (hnew p hp).1, hnodup⟩, hseen,
                fun p hp => (hnew p hp).2⟩
        · rintro ⟨⟨hchecked, hmap⟩, ⟨hne, hnodup⟩, hseen, hnew⟩
          obtain ⟨-, -, rfl⟩ := (passed?_eq_some_iff ..).mp hchecked
          have hq := hhead.mpr ⟨hchecked, hseen⟩
          have hothers := hrest.mpr ⟨hmap, hnodup, fun p hp => ⟨hne p hp, hnew p hp⟩⟩
          simp only [hq, hothers]

theorem exists_map_some_iff {α β : Type} {f : α → Option β} {l : List α} :
    (∃ ps : List β, l.map f = ps.map some) ↔ ∀ a ∈ l, (f a).isSome = true := by
  induction l with
  | nil => exact ⟨fun _ a ha => (nomatch ha), fun _ => ⟨[], rfl⟩⟩
  | cons a l ih =>
    rw [List.forall_mem_cons, ← ih]
    constructor
    · rintro ⟨ps, hps⟩
      cases ps with
      | nil => cases hps
      | cons p ps =>
        obtain ⟨hp, hrest⟩ := List.cons.inj hps
        exact ⟨by rw [hp]; rfl, ps, hrest⟩
    · rintro ⟨ha, ps, hps⟩
      obtain ⟨p, hp⟩ := Option.isSome_iff_exists.mp ha
      exact ⟨p :: ps, by rw [List.map_cons, List.map_cons, hp, hps]⟩

/-- Entries that pass are for the megachunks of their names. -/
theorem map_coord_of_passed {source : Source} {es : List (String × Coord)}
    {ps : List ParsedMegachunk} (h : es.map (passed? source) = ps.map some) :
    ps.map (·.coord) = es.map (·.2) := by
  induction es generalizing ps with
  | nil => rw [List.map_eq_nil_iff.mp h.symm, List.map_nil, List.map_nil]
  | cons e es ih =>
    cases ps with
    | nil => cases h
    | cons p ps =>
      obtain ⟨hp, hrest⟩ := List.cons.inj h
      obtain ⟨-, -, hcoord⟩ := (passed?_eq_some_iff source e.1 e.2 p).mp hp
      rw [List.map_cons, List.map_cons, hcoord, ih hrest]

theorem map_coord_parseEntries {source : Source} {names : List String} {ps : List ParsedMegachunk}
    (h : parseEntries source [] names = .ok ps) :
    ps.map (·.coord) = names.filterMap EntryName.parse? := by
  rw [map_coord_of_passed ((parseEntries_eq_ok_iff ..).mp h).1, map_snd_entriesOf]

/-- The entries of a save pass if and only if each of them does and no two are for one megachunk. -/
theorem parseEntries_ok_iff (source : Source) (names : List String) :
    (∃ ps, parseEntries source [] names = .ok ps)
      ↔ (∀ e ∈ entriesOf names, (passed? source e).isSome = true)
        ∧ (names.filterMap EntryName.parse?).Nodup := by
  rw [← exists_map_some_iff]
  constructor
  · rintro ⟨ps, hps⟩
    obtain ⟨hmap, hnodup, -⟩ := (parseEntries_eq_ok_iff ..).mp hps
    exact ⟨⟨ps, hmap⟩, map_coord_parseEntries hps ▸ hnodup⟩
  · rintro ⟨⟨ps, hmap⟩, hnodup⟩
    refine ⟨ps, (parseEntries_eq_ok_iff ..).mpr ⟨hmap, ?_, fun _ _ => List.not_mem_nil⟩⟩
    rw [map_coord_of_passed hmap, map_snd_entriesOf]
    exact hnodup

/-! ## Saves -/

section Save

variable {source : Source} {save : ParsedSave}

/-- What has passed when a save has. -/
theorem parseSave_eq_ok (h : parseSave source = .ok save) :
    Manifest.readFrom source = .ok save.manifest
      ∧ ∃ names, source.names = .ok names ∧ parseEntries source [] names = .ok save.megachunks := by
  rw [parseSave] at h
  split at h
  · cases h
  · rename_i manifest hmanifest
    split at h
    · cases h
    · rename_i names hnames
      split at h
      · cases h
      · rename_i ps hps
        split at h
        · split at h
          · obtain rfl := Except.ok.inj h
            exact ⟨hmanifest, names, hnames, hps⟩
          · cases h
        · obtain rfl := Except.ok.inj h
          exact ⟨hmanifest, names, hnames, hps⟩

/-- A save passes if and only if its manifest and its entries do and the manifest counts the
entries. -/
theorem parseSave_ok_iff (source : Source) :
    (∃ save, parseSave source = .ok save)
      ↔ ∃ manifest names, Manifest.readFrom source = .ok manifest ∧ source.names = .ok names
        ∧ (∀ e ∈ entriesOf names, (passed? source e).isSome = true)
        ∧ (names.filterMap EntryName.parse?).Nodup
        ∧ ∀ m, manifest = some m →
            m.megachunks = Int64.ofNat (names.filterMap EntryName.parse?).length := by
  constructor
  · rintro ⟨save, h⟩
    obtain ⟨hmanifest, names, hnames, hps⟩ := parseSave_eq_ok h
    obtain ⟨hpass, hnodup⟩ := (parseEntries_ok_iff source names).mp ⟨_, hps⟩
    refine ⟨save.manifest, names, hmanifest, hnames, hpass, hnodup, fun m hm => ?_⟩
    rw [← map_coord_parseEntries hps, List.length_map]
    simp only [parseSave, hmanifest, hnames, hps, hm] at h
    by_contra hcount
    rw [if_neg hcount] at h
    cases h
  · rintro ⟨manifest, names, hmanifest, hnames, hpass, hnodup, hcount⟩
    obtain ⟨ps, hps⟩ := (parseEntries_ok_iff source names).mpr ⟨hpass, hnodup⟩
    rw [← map_coord_parseEntries hps, List.length_map] at hcount
    refine ⟨⟨manifest, ps⟩, ?_⟩
    simp only [parseSave, hmanifest, hnames, hps]
    cases manifest with
    | none => rfl
    | some m => exact if_pos (hcount m rfl)

/-- Each checked entry is one that can be read and parsed. -/
theorem passed_of_mem_megachunks (h : parseSave source = .ok save) {p : ParsedMegachunk}
    (hp : p ∈ save.megachunks) :
    ∃ names name, source.names = .ok names ∧ name ∈ names
      ∧ EntryName.parse? name = some p.coord ∧ passed? source (name, p.coord) = some p := by
  obtain ⟨-, names, hnames, hps⟩ := parseSave_eq_ok h
  obtain ⟨hmap, -, -⟩ := (parseEntries_eq_ok_iff ..).mp hps
  have hmem : some p ∈ (entriesOf names).map (passed? source) := by
    rw [hmap]
    exact List.mem_map.mpr ⟨p, hp, rfl⟩
  obtain ⟨⟨name, c⟩, he, hpassed⟩ := List.mem_map.mp hmem
  obtain ⟨-, -, rfl⟩ := (passed?_eq_some_iff ..).mp hpassed
  obtain ⟨hname, hparse⟩ := mem_entriesOf.mp he
  exact ⟨names, name, hnames, hname, hparse, hpassed⟩

theorem parse_of_mem_megachunks (h : parseSave source = .ok save) {p : ParsedMegachunk}
    (hp : p ∈ save.megachunks) : Megachunk.parse p.data = .ok (p.coord, p.records) := by
  obtain ⟨names, name, -, -, -, hpassed⟩ := passed_of_mem_megachunks h hp
  exact ((passed?_eq_some_iff ..).mp hpassed).2.1

/-- The world that the entries of a save are put into. -/
def cleared (w : World) : World := { w with megachunks := ∅, arena := w.arena.clear }

theorem table_cleared (w : World) : w.cleared.table = fun _ => none := by
  funext c
  simp [table, cleared]

theorem Owned.cleared {w : World} (ho : w.Owned) : w.cleared.Owned := by
  rw [Owned, table_cleared]
  exact Ownership.none ho.sound.clear (Arena.isAllocated_clear w.arena)

/-- The entries of a save can be put into a world without chunks. -/
theorem placeable_cleared (w : World) (h : parseSave source = .ok save) :
    w.cleared.Placeable save.megachunks where
  fresh p _ := by rw [table_cleared]
  coords := by
    obtain ⟨-, names, -, hps⟩ := parseSave_eq_ok h
    exact ((parseEntries_eq_ok_iff ..).mp hps).2.1
  places p hp := Megachunk.parse_nodup (parse_of_mem_megachunks h hp)

theorem sameStorage_adopt (w : World) (m : Option Manifest) : w.SameStorage (w.adopt m) := by
  cases m <;> exact ⟨rfl, rfl⟩

/-- A save that passes replaces the chunks of the world. -/
theorem loadFrom_of_ok (w : World) (h : parseSave source = .ok save) :
    (w.loadFrom source).1 = .ok ()
      ∧ (save.megachunks.foldl place w.cleared).SameStorage (w.loadFrom source).2 := by
  have hstorage := sameStorage_adopt (save.megachunks.foldl place w.cleared) save.manifest
  rw [loadFrom, h]
  exact ⟨rfl, hstorage.1, hstorage.2⟩

theorem sameName_placeAll (ps : List ParsedMegachunk) (w : World) :
    w.SameName (ps.foldl place w) := by
  induction ps generalizing w with
  | nil => exact .refl w
  | cons p ps ih => exact ih (w.place p)

/-- The world takes its identifier and its seed from the manifest of a save. -/
theorem loadFrom_adopts (w : World) (h : parseSave source = .ok save) :
    (w.loadFrom source).2.id = (save.manifest.map (·.worldId)).getD w.id
      ∧ (w.loadFrom source).2.seed = (save.manifest.map (·.seed)).getD w.seed := by
  obtain ⟨hid, hseed, -⟩ := sameName_placeAll save.megachunks w.cleared
  have hload : (w.loadFrom source).2.id
        = ((save.megachunks.foldl place w.cleared).adopt save.manifest).id
      ∧ (w.loadFrom source).2.seed
        = ((save.megachunks.foldl place w.cleared).adopt save.manifest).seed := by
    rw [loadFrom, h]
    exact ⟨rfl, rfl⟩
  rw [hload.1, hload.2]
  cases save.manifest with
  | none => exact ⟨hid, hseed⟩
  | some m => exact ⟨rfl, rfl⟩

theorem createdAt_loadFrom (w : World) (h : parseSave source = .ok save) :
    (w.loadFrom source).2.createdAt = (save.manifest.map (·.createdAt)).getD w.createdAt := by
  obtain ⟨-, -, hcreated, -⟩ := sameName_placeAll save.megachunks w.cleared
  have hload : (w.loadFrom source).2.createdAt
      = ((save.megachunks.foldl place w.cleared).adopt save.manifest).createdAt := by
    rw [loadFrom, h]
    rfl
  rw [hload]
  cases save.manifest with
  | none => exact hcreated
  | some m => rfl

/-- What a failed load leaves as it is. -/
structure Unchanged (w w' : World) : Prop where
  storage : w.SameStorage w'
  name : w.SameName w'
  tick : w'.tick = w.tick

/-- A save that does not pass changes nothing but the books. -/
theorem loadFrom_of_error (w : World) {e : LoadError} {event : Option Event}
    (h : parseSave source = .error (e, event)) :
    (w.loadFrom source).1 = .error e ∧ w.Unchanged (w.loadFrom source).2 := by
  rw [loadFrom, h]
  dsimp only
  split
  · exact ⟨rfl, ⟨rfl, rfl⟩, .refl w, rfl⟩
  · cases event <;> exact ⟨rfl, ⟨rfl, rfl⟩, ⟨rfl, rfl, rfl, rfl⟩, rfl⟩

/-- How a world is packed does not depend on what is loaded. -/
theorem compression_loadFrom (w : World) (source : Source) :
    (w.loadFrom source).2.compression = w.compression := by
  cases h : parseSave source with
  | error e => exact (loadFrom_of_error w h).2.name.2.2.2
  | ok save =>
    obtain ⟨-, -, -, hcompression⟩ := sameName_placeAll save.megachunks w.cleared
    have hload : (w.loadFrom source).2.compression
        = ((save.megachunks.foldl place w.cleared).adopt save.manifest).compression := by
      rw [loadFrom, h]
      rfl
    rw [hload]
    cases save.manifest with
    | none => exact hcompression
    | some m => exact hcompression

/-- Loading keeps ownership, whether it succeeds or not. -/
theorem Owned.loadFrom {w : World} (ho : w.Owned) (source : Source) :
    (w.loadFrom source).2.Owned := by
  cases h : parseSave source with
  | ok save =>
    exact (loadFrom_of_ok w h).2.owned (ho.cleared.placeAll (placeable_cleared w h))
  | error e => exact (loadFrom_of_error w h).2.storage.owned ho

/-- After a load each chunk comes from the entry of its megachunk. -/
theorem chunkAt_loadFrom {w : World} (ho : w.Owned) (h : parseSave source = .ok save) (c : Coord)
    (l : Local) :
    (w.loadFrom source).2.chunkAt c l
      = (save.megachunks.find? fun p => p.coord = c).bind (·.chunk? l) := by
  have hnone : w.cleared.chunkAt c l = none := by
    rw [chunkAt, Table.chunk, Table.handle, table_cleared]
    rfl
  rw [(loadFrom_of_ok w h).2.chunkAt_eq,
    chunkAt_placeAll ho.cleared (placeable_cleared w h), hnone]
  cases save.megachunks.find? fun p => p.coord = c <;> rfl

/-- Of what the slots held before the load, nothing is left in the chunks. -/
theorem pristine_loadFrom {w : World} (ho : w.Owned) (h : parseSave source = .ok save) {c : Coord}
    {d : ChunkData} (hd : (w.loadFrom source).2.chunk? c = some d) : d.Pristine := by
  rw [chunk?_eq_chunkAt, chunkAt_loadFrom ho h, Option.bind_eq_some_iff] at hd
  obtain ⟨p, -, hd⟩ := hd
  rw [ParsedMegachunk.chunk?, Megachunk.recordedChunk?, Option.map_eq_some_iff] at hd
  obtain ⟨r, -, rfl⟩ := hd
  exact r.pristine_chunkData p.data

/-- After a load there are exactly the megachunks of the save. -/
theorem table_loadFrom_isSome (w : World) (h : parseSave source = .ok save) (c : Coord) :
    ((w.loadFrom source).2.table c).isSome = true ↔ ∃ p ∈ save.megachunks, p.coord = c := by
  rw [(loadFrom_of_ok w h).2.table_eq, table_placeAll_isSome, table_cleared]
  simp

end Save

end BlockWorld.World
