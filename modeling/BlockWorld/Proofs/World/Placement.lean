import BlockWorld.Proofs.ChunkCodec
import BlockWorld.Proofs.MegachunkParse
import BlockWorld.Proofs.World.Chunks
import BlockWorld.World.Save
/-!
Making the chunks of a checked save. Records go one by one into slots that the arena hands out, so
that ownership is kept at every step, whatever the recycled slots held before. The chunk at a place
is afterwards the one of the record that names the place.

How the proof goes. One record takes a slot and a place. Its slot has just been handed out, so ownership is
kept (`placeRecord`), and its chunk is that of the record (`chunk_placeRecord`). The records of an entry name
different places, and placing one leaves the places of the others free (`free_placeRecord`), which is what the
induction over the records needs (`placeRecords`, `chunk_placeRecords`). Entries are one level up: each is for
a new megachunk, and `Placeable` goes from a list of entries to its tail (`Placeable.tail`). At the end the
chunk at a place is found by looking the megachunk up among the entries and the place among its records
(`chunkAt_placeAll`).
-/
namespace BlockWorld

open Grid

/-- The chunk of a record. -/
def Megachunk.Record.chunkData (data : ByteArray) (r : Megachunk.Record) : ChunkData :=
  { ChunkData.fresh with chunk := Chunk.decodeFrom data r.cellsAt, generated := r.generated }

/-- A chunk as it comes out of a save: nothing is remembered of it but its cells and its mark. -/
structure ChunkData.Pristine (d : ChunkData) : Prop where
  priority : d.priority = 0
  lastTouched : d.lastTouched = 0
  cached : d.chunk.cached = false
  faces : ∀ l, (d.chunk.cell l).faces = .unknown

theorem Megachunk.Record.pristine_chunkData (data : ByteArray) (r : Megachunk.Record) :
    (r.chunkData data).Pristine where
  priority := rfl
  lastTouched := rfl
  cached := rfl
  faces l := by
    rw [chunkData, Chunk.cell_decodeFrom]
    rfl

/-- The chunk that some records have at a place. -/
def Megachunk.recordedChunk? (data : ByteArray) (records : List Megachunk.Record) (l : Local) :
    Option ChunkData :=
  (records.find? fun r => r.place = l).map (·.chunkData data)

/-- Look-up by a key that all items differ in. -/
theorem find?_key_eq_some_iff {α κ : Type} [DecidableEq κ] {key : α → κ} {l : List α}
    (hnodup : (l.map key).Nodup) {k : κ} {a : α} :
    (l.find? fun a => key a = k) = some a ↔ a ∈ l ∧ key a = k := by
  constructor
  · intro h
    exact ⟨List.mem_of_find?_eq_some h, by simpa using List.find?_some h⟩
  · rintro ⟨ha, rfl⟩
    obtain ⟨b, hb⟩ : ∃ b, (l.find? fun b => key b = key a) = some b := by
      rw [← Option.isSome_iff_exists, List.find?_isSome]
      exact ⟨a, ha, by simp⟩
    have hkey : key b = key a := by simpa using List.find?_some hb
    rw [hb, List.inj_on_of_nodup_map hnodup (List.mem_of_find?_eq_some hb) ha hkey]

theorem Megachunk.recordedChunk?_eq_none {data : ByteArray} {records : List Megachunk.Record}
    {l : Local} (hl : l ∉ records.map (·.place)) : recordedChunk? data records l = none := by
  rw [recordedChunk?, Option.map_eq_none_iff, List.find?_eq_none]
  intro r hr hplace
  exact hl (List.mem_map.mpr ⟨r, hr, by simpa using hplace⟩)

/-- The chunk at a place is that of the record which names the place. -/
theorem Megachunk.recordedChunk?_eq_some_iff {data : ByteArray} {records : List Megachunk.Record}
    (hnodup : (records.map (·.place)).Nodup) {l : Local} {d : ChunkData} :
    recordedChunk? data records l = some d
      ↔ ∃ r ∈ records, r.place = l ∧ r.chunkData data = d := by
  simp only [recordedChunk?, Option.map_eq_some_iff, find?_key_eq_some_iff hnodup, and_assoc]

/-! ## Records -/

namespace Ownership

open Megachunk (Record placeRecord recordedChunk?)

variable {ms : Table} {a : Arena} {c : Coord} {m : Megachunk} {r : Record} (data : ByteArray)

/-- A record leaves the places of other records free. -/
theorem free_placeRecord {records : List Record}
    (hfree : ∀ r' ∈ r :: records, m.handle? r'.place = .none)
    (hnew : r.place ∉ records.map (·.place)) :
    ∀ r' ∈ records, (placeRecord data (m, a) r).1.handle? r'.place = .none := by
  intro r' hr'
  have hplaced : (placeRecord data (m, a) r).1 = m.place r.place a.allocate.1 := rfl
  rw [hplaced, Megachunk.handle?_place, if_neg]
  · exact hfree r' (List.mem_cons_of_mem r hr')
  · intro he
    exact hnew (List.mem_map.mpr ⟨r', hr', he⟩)

/-- Making the chunk of a record keeps ownership. -/
theorem placeRecord (ho : Ownership ms a) (hc : ms c = some m) (hl : m.handle? r.place = .none) :
    Ownership (ms.set c (some (placeRecord data (m, a) r).1)) (placeRecord data (m, a) r).2 := by
  have hput := ho.put hc hl ho.sound.allocate
  refine hput.modify (hput.held c r.place a.allocate.1 ?_) _
  rw [handle_put hc, if_pos ⟨rfl, rfl⟩]

/-- The chunk of a record is seen at its place. -/
theorem chunk_placeRecord (ho : Ownership ms a) (hc : ms c = some m)
    (hl : m.handle? r.place = .none) (c' : Coord) (l' : Local) :
    (ms.set c (some (Megachunk.placeRecord data (m, a) r).1)).chunk
        (Megachunk.placeRecord data (m, a) r).2 c' l'
      = if c' = c ∧ l' = r.place then some (r.chunkData data) else ms.chunk a c' l' := by
  have hput := ho.put hc hl ho.sound.allocate
  have hhandle : (ms.set c (some (m.place r.place a.allocate.1))).handle c r.place
      = some a.allocate.1 := by
    rw [handle_put hc, if_pos ⟨rfl, rfl⟩]
  have hview := hput.chunk_modify hhandle
    (fun d => { d with chunk := Chunk.decodeFrom data r.cellsAt, generated := r.generated }) c' l'
  have hself := ho.chunk_put hc hl ho.sound.allocate c r.place
  rw [if_pos ⟨rfl, rfl⟩] at hself
  rw [hself, ho.chunk_put hc hl ho.sound.allocate c' l'] at hview
  refine hview.trans ?_
  split <;> rfl

/-- Making the chunks of records whose places are free and differ keeps ownership. -/
theorem placeRecords (records : List Record) (ho : Ownership ms a) (hc : ms c = some m)
    (hfree : ∀ r ∈ records, m.handle? r.place = .none)
    (hnodup : (records.map (·.place)).Nodup) :
    Ownership (ms.set c (some (records.foldl (Megachunk.placeRecord data) (m, a)).1))
      (records.foldl (Megachunk.placeRecord data) (m, a)).2 := by
  induction records generalizing ms a m with
  | nil =>
    rw [List.foldl_nil, Table.set_eq_self hc]
    exact ho
  | cons r records ih =>
    rw [List.map_cons, List.nodup_cons] at hnodup
    have hr := hfree r List.mem_cons_self
    have hstep := ho.placeRecord data hc hr
    have hrest := ih hstep (Table.set_self ..) (free_placeRecord data hfree hnodup.1) hnodup.2
    rw [Table.set_set] at hrest
    exact hrest

/-- The chunks of the records are seen at their places, and all others stay as they are. -/
theorem chunk_placeRecords (records : List Record) (ho : Ownership ms a) (hc : ms c = some m)
    (hfree : ∀ r ∈ records, m.handle? r.place = .none)
    (hnodup : (records.map (·.place)).Nodup) (c' : Coord) (l' : Local) :
    (ms.set c (some (records.foldl (Megachunk.placeRecord data) (m, a)).1)).chunk
        (records.foldl (Megachunk.placeRecord data) (m, a)).2 c' l'
      = if c' = c then (recordedChunk? data records l').or (ms.chunk a c l')
        else ms.chunk a c' l' := by
  induction records generalizing ms a m with
  | nil =>
    rw [List.foldl_nil, Table.set_eq_self hc]
    split
    · rename_i he
      rw [he]
      rfl
    · rfl
  | cons r records ih =>
    rw [List.map_cons, List.nodup_cons] at hnodup
    have hr := hfree r List.mem_cons_self
    have hstep := ho.placeRecord data hc hr
    have hview := ho.chunk_placeRecord data hc hr
    have hrest := ih hstep (Table.set_self ..) (free_placeRecord data hfree hnodup.1) hnodup.2
    rw [Table.set_set, hview, hview] at hrest
    rw [List.foldl_cons, hrest]
    by_cases he : c' = c
    · rw [if_pos he, if_pos he]
      by_cases hl : l' = r.place
      · -- No later record has this place.
        rw [if_pos ⟨rfl, hl⟩, Megachunk.recordedChunk?_eq_none (hl ▸ hnodup.1), hl]
        simp [recordedChunk?]
      · rw [if_neg fun hand => hl hand.2, recordedChunk?, recordedChunk?, List.find?_cons_of_neg]
        simpa using Ne.symm hl
    · rw [if_neg he, if_neg he, if_neg fun hand => he hand.1]

end Ownership

/-! ## Megachunks -/

namespace World

/-- The chunk that a checked entry has at a place. -/
def ParsedMegachunk.chunk? (p : ParsedMegachunk) (l : Local) : Option ChunkData :=
  Megachunk.recordedChunk? p.data p.records l

/-- The records of a checked entry name different places. -/
def ParsedMegachunk.Distinct (p : ParsedMegachunk) : Prop := (p.records.map (·.place)).Nodup

theorem table_place (w : World) (p : ParsedMegachunk) :
    (w.place p).table
      = w.table.set p.coord (some (Megachunk.ofRecords p.coord p.data p.records w.arena).1) := by
  funext c
  simp only [table, place, Table.set, Function.update_apply, Std.HashMap.getElem?_insert]
  by_cases he : c = p.coord
  · simp [he]
  · rw [if_neg (by simpa using Ne.symm he), if_neg he]

section Place

variable {w : World} {p : ParsedMegachunk}

/-- A new megachunk with the chunks of an entry keeps ownership. -/
theorem Owned.place (ho : w.Owned) (hnew : w.table p.coord = none) (hp : p.Distinct) :
    (w.place p).Owned := by
  rw [Owned, table_place, ← Table.set_set w.table p.coord (some (.empty p.coord))]
  exact (Ownership.addEmpty ho hnew).placeRecords p.data p.records (Table.set_self ..)
    (fun r _ => Megachunk.handle?_empty p.coord r.place) hp

/-- The chunks of an entry are those of its megachunk. -/
theorem chunkAt_place (ho : w.Owned) (hnew : w.table p.coord = none) (hp : p.Distinct)
    (c : Coord) (l : Local) :
    (w.place p).chunkAt c l = if c = p.coord then p.chunk? l else w.chunkAt c l := by
  have hnone : w.table.chunk w.arena p.coord l = none := by
    rw [Table.chunk, Table.handle, hnew]
    rfl
  rw [chunkAt, table_place, ← Table.set_set w.table p.coord (some (.empty p.coord))]
  refine ((Ownership.addEmpty ho hnew).chunk_placeRecords p.data p.records (Table.set_self ..)
    (fun r _ => Megachunk.handle?_empty p.coord r.place) hp c l).trans ?_
  rw [Ownership.chunk_addEmpty hnew, Ownership.chunk_addEmpty hnew, hnone, Option.or_none]
  rfl

end Place

/-! ## Saves -/

section PlaceAll

variable {w : World} {ps : List ParsedMegachunk}

/-- Entries that can be placed into a world: their megachunks are new and differ, and so do the
places of their records. -/
structure Placeable (w : World) (ps : List ParsedMegachunk) : Prop where
  fresh : ∀ p ∈ ps, w.table p.coord = none
  coords : (ps.map (·.coord)).Nodup
  places : ∀ p ∈ ps, p.Distinct

/-- Placing the first entry leaves the others placeable. -/
theorem Placeable.tail {p : ParsedMegachunk} (hp : w.Placeable (p :: ps)) :
    (w.place p).Placeable ps where
  fresh q hq := by
    have hcoords := hp.coords
    rw [List.map_cons, List.nodup_cons] at hcoords
    rw [table_place, Table.set_other]
    · exact hp.fresh q (List.mem_cons_of_mem p hq)
    · intro he
      exact hcoords.1 (List.mem_map.mpr ⟨q, hq, he⟩)
  coords := (List.nodup_cons.mp hp.coords).2
  places q hq := hp.places q (List.mem_cons_of_mem p hq)

theorem Owned.placeAll (ho : w.Owned) (hp : w.Placeable ps) : (ps.foldl World.place w).Owned := by
  induction ps generalizing w with
  | nil => exact ho
  | cons p ps ih =>
    exact ih (ho.place (hp.fresh p List.mem_cons_self) (hp.places p List.mem_cons_self)) hp.tail

/-- Each chunk comes from the entry of its megachunk. -/
theorem chunkAt_placeAll (ho : w.Owned) (hp : w.Placeable ps) (c : Coord) (l : Local) :
    (ps.foldl World.place w).chunkAt c l
      = ((ps.find? fun p => p.coord = c).map (·.chunk? l)).getD (w.chunkAt c l) := by
  induction ps generalizing w with
  | nil => rfl
  | cons p ps ih =>
    have hfresh := hp.fresh p List.mem_cons_self
    have hplaces := hp.places p List.mem_cons_self
    rw [List.foldl_cons, ih (ho.place hfresh hplaces) hp.tail, chunkAt_place ho hfresh hplaces]
    by_cases he : c = p.coord
    · have hothers : (ps.find? fun p => p.coord = c) = none := by
        rw [List.find?_eq_none]
        intro q hq hqc
        have hcoords := hp.coords
        rw [List.map_cons, List.nodup_cons] at hcoords
        exact hcoords.1 (List.mem_map.mpr ⟨q, hq, by simpa [he] using hqc⟩)
      rw [hothers, if_pos he, List.find?_cons_of_pos (by simp [he])]
      rfl
    · rw [if_neg he, List.find?_cons_of_neg (by simpa using Ne.symm he)]

/-- The megachunks are those from before and those of the entries. -/
theorem table_placeAll_isSome (ps : List ParsedMegachunk) (w : World) (c : Coord) :
    ((ps.foldl World.place w).table c).isSome = true
      ↔ (w.table c).isSome = true ∨ ∃ p ∈ ps, p.coord = c := by
  induction ps generalizing w with
  | nil => simp
  | cons p ps ih =>
    rw [List.foldl_cons, ih, table_place]
    by_cases he : c = p.coord
    · simp [he]
    · rw [Table.set_other _ _ he]
      simp [Ne.symm he]

end PlaceAll

end World

end BlockWorld
