import BlockWorld.Proofs.ArenaRuns
import BlockWorld.Proofs.Faces
import BlockWorld.Proofs.World.Checked
/-!
Megachunks in an arena that others use too. The chunks of a megachunk that is read go into slots
that were vacant, so the megachunk is whole (`Whole`) and all other chunks of the arena stay where
and what they are (`Fills`). This is shown for one record and then for all of them
(`fills_placeRecords`). With what is known about the bytes of a megachunk, it follows that a
megachunk can be written from one arena and read into another (`encode_decode_arena`).

How the proof goes. `Fills` says what making the chunks of some records does, for the megachunk and for the
arena at once. It holds for no records (`fills_nil`) and for one (`fills_placeRecord`), where the slot has
just been handed out and so was vacant; and those of one record and of the others go together (`Fills.cons`),
because the second part leaves the slots alone that the first has taken. What a megachunk has afterwards is
read off it (`Fills.count_eq`, `Fills.chunk_eq`, `Fills.vacant`).
-/
namespace BlockWorld

open Grid

/-- What is read back for a chunk that has been written. -/
structure ChunkData.ReadBack (d d' : ChunkData) : Prop where
  generated : d'.generated = d.generated
  priority : d'.priority = 0
  lastTouched : d'.lastTouched = 0
  cached : d'.chunk.cached = false
  kind : ∀ l, (d'.chunk.cell l).kind = (d.chunk.cell l).kind
  damage : ∀ l, (d'.chunk.cell l).damage = damageOfByte (quantizeDamage (d.chunk.cell l).damage)
  faces : ∀ l, (d'.chunk.cell l).faces.isValid = false

theorem ChunkData.readBack_reloaded (d : ChunkData) : d.ReadBack d.reloaded := by
  have hcell : ∀ l, d.reloaded.chunk.cell l = (d.chunk.cell l).quantized := d.chunk.cell_quantized
  refine ⟨rfl, rfl, rfl, rfl, fun l => ?_, fun l => ?_, fun l => ?_⟩ <;> rw [hcell]
  · rfl
  · rfl
  · exact FaceMask.isValid_unknown

namespace Megachunk

variable {m : Megachunk} {a : Arena}

/-- A megachunk that counts its chunks right and whose handles are in use and differ. -/
structure Whole (m : Megachunk) (a : Arena) : Prop where
  counted : m.count = m.occupied.length
  held : m.HeldBy a
  unshared : ∀ l k h, m.handle? l = some h → m.handle? k = some h → l = k

theorem whole_empty (c : Coord) (a : Arena) : (empty c).Whole a where
  counted := by rw [occupied_empty]; rfl
  held l h hl := by simp at hl
  unshared l k h hl := by simp at hl

/-- A slot that has just been handed out goes to a free place. -/
theorem Whole.place (hm : m.Whole a) {l : Local} (hl : m.handle? l = none) {h : Nat} {a' : Arena}
    (hand : a.HandsOut h a') : (m.place l h).Whole a' where
  counted := by rw [count_place, length_occupied_place hl, hm.counted]
  held k g hk := by
    rw [handle?_place] at hk
    rw [hand.isAllocated]
    split at hk
    · simp [Option.some.inj hk]
    · simp [hm.held k g hk]
  unshared k k' g hk hk' := by
    -- The new handle was vacant, so no other place has it.
    have hother : ∀ j, m.handle? j ≠ some h := by
      intro j hj
      have hused := hm.held j h hj
      rw [hand.vacant] at hused
      cases hused
    rw [handle?_place] at hk hk'
    split at hk <;> split at hk'
    · simp_all
    · exact absurd (hk'.trans hk.symm) (hother k')
    · exact absurd (hk.trans hk'.symm) (hother k)
    · exact hm.unshared k k' g hk hk'

/-- A place has a chunk exactly if it has a handle. -/
theorem HeldBy.isSome_chunk? (hm : m.HeldBy a) (l : Local) :
    (m.chunk? a l).isSome = (m.handle? l).isSome := by
  rw [chunk?]
  cases hl : m.handle? l with
  | none => rfl
  | some h => simp [Arena.get?, hm l h hl]

/-! ## Making the chunks of records -/

/-- What making the chunks of some records does to a megachunk and to the arena: each record has a
chunk at its place, in a slot that was vacant, and all chunks of the arena stay as they are. -/
structure Fills (data : ByteArray) (records : List Record) (s s' : Megachunk × Arena) : Prop where
  sound : s'.2.Sound
  whole : s'.1.Whole s'.2
  coord : s'.1.coord = s.1.coord
  count : s'.1.count = s.1.count + records.length
  live : s'.2.live = s.2.live + records.length
  kept : ∀ h d, s.2.get? h = some d → s'.2.get? h = some d
  handle : ∀ l h, s'.1.handle? l = some h → s.1.handle? l = some h ∨ s.2.isAllocated h = false
  chunk : ∀ l, s'.1.chunk? s'.2 l = (recordedChunk? data records l).or (s.1.chunk? s.2 l)

variable {data : ByteArray}

theorem fills_nil {s : Megachunk × Arena} (hs : s.2.Sound) (hm : s.1.Whole s.2) :
    Fills data [] s s where
  sound := hs
  whole := hm
  coord := rfl
  count := rfl
  live := rfl
  kept _ _ h := h
  handle _ _ h := .inl h
  chunk _ := rfl

theorem get?_placeRecord (data : ByteArray) (hs : a.Sound) (m : Megachunk) (r : Record) (k : Nat) :
    (placeRecord data (m, a) r).2.get? k
      = if k = a.allocate.1 then some (r.chunkData data) else a.get? k := by
  have hand := hs.allocate
  have hslot := hand.sound.slot_modify hand.isAllocated_self
    (fun d => { d with chunk := Chunk.decodeFrom data r.cellsAt, generated := r.generated }) k
  have hplaced : (placeRecord data (m, a) r).2.slot k
      = if k = a.allocate.1 then r.chunkData data else a.allocate.2.slot k := by
    rw [hand.slot_self] at hslot
    exact hslot
  have hused : (placeRecord data (m, a) r).2.isAllocated k
      = (k == a.allocate.1 || a.isAllocated k) := hand.isAllocated k
  rw [Arena.get?, Arena.get?, hplaced, hused]
  by_cases hk : k = a.allocate.1
  · simp [hk]
  · simp [hk, hand.slot_other k hk]

theorem fills_placeRecord (data : ByteArray) (hs : a.Sound) (hm : m.Whole a) {r : Record}
    (hl : m.handle? r.place = none) : Fills data [r] (m, a) (placeRecord data (m, a) r) := by
  have hand := hs.allocate
  have hget := get?_placeRecord data hs m r
  have hhandle : ∀ l, (placeRecord data (m, a) r).1.handle? l
      = if l = r.place then some a.allocate.1 else m.handle? l :=
    fun l => handle?_place m r.place a.allocate.1 l
  -- Slots that were in use are not the one that is handed out.
  have hother : ∀ h, a.isAllocated h = true → h ≠ a.allocate.1 := by
    rintro h hused rfl
    rw [hand.vacant] at hused
    cases hused
  have hplaced := hm.place hl hand
  refine ⟨Checked.sound_placeRecord hs data m r, ⟨hplaced.counted, hplaced.held, hplaced.unshared⟩,
    rfl, rfl, a.live_allocate, fun h d hd => ?_, fun l h hh => ?_, fun l => ?_⟩
  · have hused : a.isAllocated h = true := by
      by_contra hfree
      simp [Arena.get?, hfree] at hd
    rw [hget, if_neg (hother h hused)]
    exact hd
  · rw [hhandle] at hh
    split at hh
    · rw [← Option.some.inj hh]
      exact .inr hand.vacant
    · exact .inl hh
  · rw [chunk?, hhandle]
    by_cases hplace : l = r.place
    · rw [if_pos hplace, Option.bind_some, hget, if_pos rfl]
      simp [recordedChunk?, hplace]
    · have hnone : recordedChunk? data [r] l = none :=
        recordedChunk?_eq_none (by simpa using hplace)
      rw [if_neg hplace, hnone, Option.none_or, chunk?]
      cases hh : m.handle? l with
      | none => rfl
      | some h => rw [Option.bind_some, Option.bind_some, hget, if_neg (hother h (hm.held l h hh))]

theorem Fills.cons {s s' s'' : Megachunk × Arena} {r : Record} {records : List Record}
    (hfirst : Fills data [r] s s') (hrest : Fills data records s' s'')
    (hnew : r.place ∉ records.map (·.place)) : Fills data (r :: records) s s'' where
  sound := hrest.sound
  whole := hrest.whole
  coord := hrest.coord.trans hfirst.coord
  count := by
    rw [hrest.count, hfirst.count]
    simp only [List.length_cons, List.length_nil]
    omega
  live := by
    rw [hrest.live, hfirst.live]
    simp only [List.length_cons, List.length_nil]
    omega
  kept h d hd := hrest.kept h d (hfirst.kept h d hd)
  handle l h hh := by
    rcases hrest.handle l h hh with hbefore | hvacant
    · exact hfirst.handle l h hbefore
    · right
      by_contra hused
      have hd : s.2.get? h = some (s.2.slot h) := by simp [Arena.get?, hused]
      have hd' := hfirst.kept h _ hd
      simp [Arena.get?, hvacant] at hd'
  chunk l := by
    rw [hrest.chunk, hfirst.chunk]
    by_cases hl : l = r.place
    · rw [recordedChunk?_eq_none (hl ▸ hnew), Option.none_or]
      simp [recordedChunk?, hl]
    · have hne : r.place ≠ l := fun h => hl h.symm
      simp [recordedChunk?, hne]

theorem fills_placeRecords (records : List Record) {s : Megachunk × Arena} (hs : s.2.Sound)
    (hm : s.1.Whole s.2) (hfree : ∀ r ∈ records, s.1.handle? r.place = none)
    (hnodup : (records.map (·.place)).Nodup) :
    Fills data records s (records.foldl (placeRecord data) s) := by
  induction records generalizing s with
  | nil => exact fills_nil hs hm
  | cons r records ih =>
    obtain ⟨hnew, hnodup⟩ := List.nodup_cons.mp hnodup
    have hfirst := fills_placeRecord data hs hm (hfree r List.mem_cons_self)
    have hfree' := Ownership.free_placeRecord data (a := s.2) hfree hnew
    exact hfirst.cons (ih hfirst.sound hfirst.whole hfree' hnodup) hnew

/-! ## Reading a megachunk -/

/-- The chunks of a megachunk that is read are made in the arena. -/
theorem fills_decode {c : Coord} {records : List Record} (h : parse data = .ok (c, records))
    (hs : a.Sound) :
    ∃ m' a', decode data a = .ok (m', a') ∧ Fills data records (empty c, a) (m', a') := by
  refine ⟨_, _, ?_, fills_placeRecords records hs (whole_empty c a)
    (fun r _ => handle?_empty c r.place) (parse_nodup h)⟩
  rw [decode, h]
  rfl

/-- What has been read was parsed, and its chunks were made in the arena. -/
theorem fills_of_decode {s : Megachunk × Arena} (hs : a.Sound) (h : decode data a = .ok s) :
    ∃ c records, parse data = .ok (c, records) ∧ Fills data records (empty c, a) s := by
  cases hparse : parse data with
  | error e =>
    rw [decode, hparse] at h
    cases h
  | ok found =>
    obtain ⟨c, records⟩ := found
    obtain ⟨m', a', hdecode, hfills⟩ := fills_decode hparse hs
    obtain rfl := Except.ok.inj (h.symm.trans hdecode)
    exact ⟨c, records, rfl, hfills⟩

section Empty

variable {c : Coord} {records : List Record} {s : Megachunk × Arena}
  (hfills : Fills data records (empty c, a) s)
include hfills

theorem Fills.count_eq : s.1.count = records.length :=
  hfills.count.trans (Nat.zero_add _)

theorem Fills.chunk_eq (l : Local) : s.1.chunk? s.2 l = recordedChunk? data records l := by
  have hempty : (empty c).chunk? a l = none := by simp [chunk?]
  rw [hfills.chunk l, hempty, Option.or_none]

/-- Every chunk is in a slot that was vacant. -/
theorem Fills.vacant {l : Local} {h : Nat} (hh : s.1.handle? l = some h) :
    a.isAllocated h = false := by
  obtain hnone | hvacant := hfills.handle l h hh
  · simp at hnone
  · exact hvacant

end Empty

/-! ## From one arena to another -/

/-- Writing a whole megachunk whose coordinate fits the header. -/
theorem Whole.encode (hm : m.Whole a) (hc : m.coord.InRange) :
    ∃ data, m.encode a = .ok data ∧ Checked.encode m a = .ok (.ok data)
      ∧ data.size = headerSize + m.count * recordSize := by
  obtain ⟨header, hheader⟩ := (encodeHeader_ok_iff hc.negatable).mpr hc
  have hdata := encode_of_ok hheader a
  refine ⟨_, hdata, ?_, size_encode hm.counted hdata⟩
  rw [Checked.encode_eq hm.counted fun e he => hm.held e.1 e.2 (mem_occupied.mp he), hdata]

/-- A whole megachunk with a coordinate of three bytes is written, without a test failing, and what
is written is read into any other arena, whatever has been done to it: the same places have chunks
again, with the same blocks and marks, and damages in steps of 1/256. They lie in slots that were
vacant, and the chunks that were in the arena keep their handles and what they hold. -/
theorem encode_decode_arena (m : Megachunk) (a : Arena) (hm : m.Whole a) (hc : m.coord.InRange)
    (steps : List Arena.Step) :
    let b := Arena.run steps
    ∃ data m' b', m.encode a = .ok data ∧ Checked.encode m a = .ok (.ok data)
      ∧ data.size = 10 + 12292 * m.count
      ∧ decode data b = .ok (m', b')
      ∧ m'.coord = m.coord ∧ m'.count = m.count ∧ m'.Whole b' ∧ b'.Sound
      ∧ (∀ l, (m'.handle? l).isSome = (m.handle? l).isSome)
      ∧ (∀ l d, m.chunk? a l = some d → ∃ d', m'.chunk? b' l = some d' ∧ d.ReadBack d')
      ∧ b'.live = b.live + m.count
      ∧ (∀ l h, m'.handle? l = some h → b.isAllocated h = false)
      ∧ ∀ h d, b.get? h = some d → b'.get? h = some d := by
  intro b
  obtain ⟨data, hdata, hchecked, hsize⟩ := hm.encode hc
  obtain ⟨records, hparse, hrecorded⟩ := parse_encode hm.held hc.negatable hdata
  have hlength : records.length = m.count := by
    rw [length_of_parse hparse, hsize, Nat.add_sub_cancel_left, Nat.mul_div_cancel _ recordSize_pos]
  obtain ⟨m', b', hdecode, hfills⟩ := fills_decode hparse (Arena.sound_run steps)
  have hread (l : Local) : m'.chunk? b' l = (m.chunk? a l).map ChunkData.reloaded :=
    (hfills.chunk_eq l).trans (hrecorded l)
  refine ⟨data, m', b', hdata, hchecked, ?_, hdecode, hfills.coord, hfills.count_eq.trans hlength,
    hfills.whole, hfills.sound, ?_, ?_, ?_, fun l h hh => hfills.vacant hh, hfills.kept⟩
  · rw [hsize, Nat.mul_comm]
    rfl
  · intro l
    rw [← hfills.whole.held.isSome_chunk?, hread, Option.isSome_map, hm.held.isSome_chunk?]
  · intro l d hd
    exact ⟨d.reloaded, by rw [hread, hd]; rfl, d.readBack_reloaded⟩
  · rw [hfills.live, hlength]

/-- A megachunk with one chunk, behind a header with a negative and with a greatest component, goes
into an arena with another chunk and a used slot. -/
theorem encode_decode_arena_one :
    let m := (empty ⟨-1, 2, 16777215⟩).place ⟨3, 15, 0⟩ 0
    let a := Arena.empty.allocate.2
    let b := Arena.run [.allocate, .write 0 fun d => { d with generated := true, priority := 7 },
      .allocate, .free 0]
    m.Whole a ∧ m.coord.InRange ∧ ∃ data m' b', m.encode a = .ok data ∧ data.size = 12302
      ∧ decode data b = .ok (m', b') ∧ m'.coord = ⟨-1, 2, 16777215⟩ ∧ b'.live = 2
      ∧ (m'.handle? ⟨3, 15, 0⟩).isSome = true
      ∧ ∀ l h, m'.handle? l = some h → b.isAllocated h = false := by
  intro m a b
  have hm : m.Whole a := (whole_empty _ _).place (handle?_empty _ _) Arena.sound_empty.allocate
  have hc : m.coord.InRange := by decide
  obtain ⟨data, m', b', hdata, -, hsize, hread, hcoord, -, -, -, hplaces, -, hlive, hvacant, -⟩ :=
    encode_decode_arena m a hm hc [.allocate,
      .write 0 fun d => { d with generated := true, priority := 7 }, .allocate, .free 0]
  have hcount : m.count = 1 := rfl
  have hone : b.live = 1 := rfl
  rw [hcount] at hsize hlive
  refine ⟨hm, hc, data, m', b', hdata, hsize, hread, hcoord, ?_, ?_, hvacant⟩
  · rw [hlive, hone]
  · rw [hplaces, handle?_place, if_pos rfl]
    rfl

end Megachunk

end BlockWorld
