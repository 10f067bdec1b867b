import BlockWorld.Proofs.MegachunkPlacing
/-!
Reading megachunks from bytes that nobody vouches for. `Bounded` holds the reader once more, with a
test at every byte and with the arena as a state that a refusal does not undo. No test ever fails: a
record is only read where the size of the data has room for it (`Bounded.parse_eq`,
`Bounded.decode_eq`). So reading answers all data, accepts exactly those that are a header and
records with different places, and leaves the arena alone otherwise.

How the proof goes. Each reader with tests has an equation that says it gives what the plain one gives, under
the condition that the bytes it asks for are there (`byte_eq`, `component_eq`, `header_eq`, `records_eq`,
`cell_eq`, `chunk_eq`). The conditions come from one place: the size of the data is checked to be that of a
header and a whole number of records before anything is read, and every position is below it. So the equation
for all data has no condition left (`parse_eq`). For the arena the readers with tests carry it as a state, and
it is only changed after the data have been parsed as a whole (`decode_of_error`, `decode_of_ok`).
-/
namespace BlockWorld

open Grid

/-- A byte was asked for behind the end of some data. -/
structure Overread where
  position : Nat
  size : Nat

/-! ## Records of the data -/

namespace Megachunk

variable {data : ByteArray} {c : Coord} {records : List Record}

theorem placeOfBytes?_eq_some_iff {x y z : UInt8} {l : Local} :
    placeOfBytes? x y z = some l
      ↔ (x, y, z) = (l.x.val.toUInt8, l.y.val.toUInt8, l.z.val.toUInt8) := by
  constructor
  · intro h
    exact placeOfBytes?_inj h (placeOfBytes?_val l)
  · intro h
    obtain ⟨rfl, rfl, rfl⟩ : x = _ ∧ y = _ ∧ z = _ := by simpa using h
    exact placeOfBytes?_val l

/-- The records that are found are those that stand in the data. -/
theorem mem_of_parse (h : parse data = .ok (c, records)) {r : Record} :
    r ∈ records ↔ ∃ i < (data.size - headerSize) / recordSize,
      recordAt? data (headerSize + i * recordSize) = some r := by
  obtain ⟨-, n, hsize, hmap, -⟩ := (parse_eq_ok_iff ..).mp h
  have hn : (data.size - headerSize) / recordSize = n := by
    rw [hsize, Nat.add_sub_cancel_left, Nat.mul_div_cancel _ recordSize_pos]
  have hmem : r ∈ records ↔ some r ∈ records.map some := by simp
  rw [hn, hmem, ← hmap]
  simp only [List.mem_map, List.mem_range]

/-- The cells of every record lie in the data. -/
theorem cellsAt_of_parse (h : parse data = .ok (c, records)) :
    ∀ r ∈ records, r.cellsAt + Chunk.encodedSize ≤ data.size := by
  intro r hr
  obtain ⟨i, hi, hat⟩ := (mem_of_parse h).mp hr
  obtain ⟨-, n, hsize, -, -⟩ := (parse_eq_ok_iff ..).mp h
  rw [hsize, Nat.add_sub_cancel_left, Nat.mul_div_cancel _ recordSize_pos] at hi
  obtain ⟨l, -, rfl⟩ := Option.map_eq_some_iff.mp hat
  have hroom : (i + 1) * recordSize ≤ n * recordSize := Nat.mul_le_mul_right _ hi
  rw [Nat.succ_mul] at hroom
  show headerSize + i * recordSize + 4 + Chunk.encodedSize ≤ data.size
  unfold recordSize at hsize hroom ⊢
  omega

/-- The chunk at a place comes from the record whose bytes name the place. -/
theorem recordedChunk?_of_parse (h : parse data = .ok (c, records)) {l : Local} {d : ChunkData} :
    recordedChunk? data records l = some d
      ↔ ∃ i < (data.size - headerSize) / recordSize,
        placeBytes data i = (l.x.val.toUInt8, l.y.val.toUInt8, l.z.val.toUInt8)
          ∧ d = ⟨Chunk.decodeFrom data (headerSize + i * recordSize + 4),
            Chunk.byteAt data (headerSize + i * recordSize) != 0, 0, 0⟩ := by
  rw [recordedChunk?_eq_some_iff (parse_nodup h)]
  constructor
  · rintro ⟨r, hr, rfl, rfl⟩
    obtain ⟨i, hi, hat⟩ := (mem_of_parse h).mp hr
    obtain ⟨l, hl, rfl⟩ := Option.map_eq_some_iff.mp hat
    exact ⟨i, hi, placeOfBytes?_eq_some_iff.mp hl, rfl⟩
  · rintro ⟨i, hi, hl, rfl⟩
    refine ⟨⟨l, _, _⟩, (mem_of_parse h).mpr ⟨i, hi, ?_⟩, rfl, rfl⟩
    exact Option.map_eq_some_iff.mpr ⟨l, placeOfBytes?_eq_some_iff.mpr hl, rfl⟩

end Megachunk

namespace Bounded

open Megachunk (Record DecodeError headerSize recordSize placeOfBytes? decodeComponent)

/-! ## The reader -/

/-- The byte at a position, which has to be there. -/
def byte (data : ByteArray) (i : Nat) : Except Overread UInt8 :=
  match data[i]? with
  | some b => .ok b
  | none => .error ⟨i, data.size⟩

/-- A component of the header, from the three bytes at a position. -/
def component (data : ByteArray) (negative : Bool) (i : Nat) : Except Overread Int64 := do
  return decodeComponent negative (← byte data i) (← byte data (i + 1)) (← byte data (i + 2))

/-- The coordinate in the header. -/
def header (data : ByteArray) : Except Overread Coord := do
  let signs ← byte data 0
  let x ← component data (signs &&& 4 != 0) 1
  let y ← component data (signs &&& 2 != 0) 4
  let z ← component data (signs &&& 1 != 0) 7
  return ⟨x, y, z⟩

/-- Some records from a position on. -/
def records (mega : Coord) (data : ByteArray) :
    (n start : Nat) → (seen : List Local) → Except Overread (Except DecodeError (List Record))
  | 0, _, _ => return .ok []
  | n + 1, start, seen => do
    let x ← byte data (start + 1)
    let y ← byte data (start + 2)
    let z ← byte data (start + 3)
    match placeOfBytes? x y z with
    | none => return .error (.misplaced mega x y z)
    | some l =>
      if l ∈ seen then return .error (.repeated mega l)
      else
        let flag ← byte data start
        match ← records mega data n (start + recordSize) (l :: seen) with
        | .error e => return .error e
        | .ok rest => return .ok (⟨l, flag != 0, start + 4⟩ :: rest)

/-- The coordinate and the records of a megachunk. -/
def parse (data : ByteArray) : Except Overread (Except DecodeError (Coord × List Record)) :=
  if data.size < headerSize then return .error (.short data.size)
  else if (data.size - headerSize) % recordSize ≠ 0 then
    return .error (.ragged (data.size - headerSize))
  else do
    let mega ← header data
    match ← records mega data ((data.size - headerSize) / recordSize) headerSize [] with
    | .error e => return .error e
    | .ok found => return .ok (mega, found)

/-- The cell with a given number of the chunk whose bytes start at a position. -/
def cell (data : ByteArray) (start i : Nat) : Except Overread Cell := do
  let first := start + i * Cell.recordSize
  return .ofBytes (← byte data first) (← byte data (first + 1)) (← byte data (first + 2))

/-- The chunk whose bytes start at a position. -/
def chunk (data : ByteArray) (start : Nat) : Except Overread Chunk := do
  let cells ← Vector.ofFnM fun i : Fin volume => cell data start i.val
  return ⟨cells, false⟩

/-- Makes the chunk of a record in the arena and puts it in its place. -/
def placeRecord (data : ByteArray) (m : Megachunk) (r : Record) :
    StateT Arena (Except Overread) Megachunk := do
  let h ← modifyGet Arena.allocate
  let found ← chunk data r.cellsAt
  modify fun a => a.modify h fun d => { d with chunk := found, generated := r.generated }
  return m.place r.place h

/-- Reads a megachunk into the arena. -/
def decode (data : ByteArray) : StateT Arena (Except Overread) (Except DecodeError Megachunk) := do
  match ← parse data with
  | .error e => return .error e
  | .ok (mega, found) => return .ok (← found.foldlM (placeRecord data) (.empty mega))

/-! ## No test fails -/

variable {data : ByteArray}

theorem byte_eq {i : Nat} (hi : i < data.size) : byte data i = .ok (Chunk.byteAt data i) := by
  rw [byte, Chunk.byteAt, getElem?_pos data i hi]
  rfl

theorem component_eq (negative : Bool) {i : Nat} (hi : i + 2 < data.size) :
    component data negative i = .ok (decodeComponent negative (Chunk.byteAt data i)
      (Chunk.byteAt data (i + 1)) (Chunk.byteAt data (i + 2))) := by
  rw [component, byte_eq (by omega), byte_eq (by omega), byte_eq hi]
  rfl

theorem header_eq (hsize : headerSize ≤ data.size) :
    header data = .ok (Megachunk.decodeHeader data) := by
  have hten : 10 ≤ data.size := hsize
  rw [header, byte_eq (by omega)]
  simp only [Checked.ok_bind]
  rw [component_eq _ (by omega), component_eq _ (by omega), component_eq _ (by omega)]
  rfl

theorem records_eq (mega : Coord) {n start : Nat} (seen : List Local)
    (hsize : start + n * recordSize ≤ data.size) :
    records mega data n start seen = .ok (Megachunk.decodeRecords mega data n start seen) := by
  induction n generalizing start seen with
  | zero => rfl
  | succ n ih =>
    have hroom : start + recordSize + n * recordSize ≤ data.size := by
      rw [Nat.succ_mul] at hsize
      omega
    have hrecord : recordSize = 12292 := rfl
    rw [records, byte_eq (by omega), byte_eq (by omega), byte_eq (by omega),
      Megachunk.decodeRecords]
    simp only [Checked.ok_bind]
    cases placeOfBytes? (Chunk.byteAt data (start + 1)) (Chunk.byteAt data (start + 2))
        (Chunk.byteAt data (start + 3)) with
    | none => rfl
    | some l =>
      simp only
      split
      · rfl
      · rw [byte_eq (by omega), ih (l :: seen) hroom]
        simp only [Checked.ok_bind]
        cases Megachunk.decodeRecords mega data n (start + recordSize) (l :: seen) <;> rfl

/-- All data are parsed without a test failing. -/
theorem parse_eq (data : ByteArray) : parse data = .ok (Megachunk.parse data) := by
  unfold parse Megachunk.parse
  split
  · rfl
  · rename_i hsize
    dsimp only
    split
    · rfl
    · have hheader : headerSize ≤ data.size := Nat.le_of_not_lt hsize
      have hroom : headerSize + (data.size - headerSize) / recordSize * recordSize ≤ data.size := by
        have hdiv := Nat.div_mul_le_self (data.size - headerSize) recordSize
        omega
      rw [header_eq hheader, Checked.ok_bind, records_eq _ [] hroom, Checked.ok_bind]
      cases Megachunk.decodeRecords (Megachunk.decodeHeader data) data
        ((data.size - headerSize) / recordSize) headerSize [] <;> rfl

theorem cell_eq {start i : Nat} (hi : i < volume)
    (hsize : start + Chunk.encodedSize ≤ data.size) :
    cell data start i = .ok (Chunk.cellAt data start i) := by
  have hroom : start + i * Cell.recordSize + 3 ≤ start + volume * Cell.recordSize := by
    have hthree : Cell.recordSize = 3 := rfl
    rw [hthree]
    omega
  have hend : start + i * Cell.recordSize + 3 ≤ data.size := hroom.trans hsize
  rw [cell, byte_eq (by omega), byte_eq (by omega), byte_eq (by omega)]
  rfl

theorem chunk_eq {start : Nat} (hsize : start + Chunk.encodedSize ≤ data.size) :
    chunk data start = .ok (Chunk.decodeFrom data start) := by
  have hcells : (fun i : Fin volume => cell data start i.val)
      = fun i => pure (Chunk.cellAt data start i.val) :=
    funext fun i => cell_eq i.isLt hsize
  rw [chunk, hcells, Vector.ofFnM_pure]
  rfl

theorem placeRecord_eq {r : Record} (hsize : r.cellsAt + Chunk.encodedSize ≤ data.size)
    (m : Megachunk) (a : Arena) :
    (placeRecord data m r).run a = .ok (Megachunk.placeRecord data (m, a) r) := by
  rw [placeRecord, chunk_eq hsize]
  rfl

theorem placeRecords_eq {found : List Record}
    (hsize : ∀ r ∈ found, r.cellsAt + Chunk.encodedSize ≤ data.size) (m : Megachunk) (a : Arena) :
    (found.foldlM (placeRecord data) m).run a
      = .ok (found.foldl (Megachunk.placeRecord data) (m, a)) := by
  induction found generalizing m a with
  | nil => rfl
  | cons r found ih =>
    rw [List.foldlM_cons, StateT.run_bind, placeRecord_eq (hsize r List.mem_cons_self),
      Checked.ok_bind]
    exact ih (fun r hr => hsize r (List.mem_cons_of_mem _ hr)) _ _

theorem decode_of_error {e : DecodeError} (h : Megachunk.parse data = .error e) (a : Arena) :
    (decode data).run a = .ok (.error e, a) := by
  rw [decode, parse_eq, h]
  rfl

/-- A megachunk is read without a test failing. -/
theorem decode_of_ok {c : Coord} {found : List Record}
    (h : Megachunk.parse data = .ok (c, found)) {m : Megachunk} {a a' : Arena}
    (hread : Megachunk.decode data a = .ok (m, a')) : (decode data).run a = .ok (.ok m, a') := by
  have hplaced : found.foldl (Megachunk.placeRecord data) (.empty c, a) = (m, a') := by
    rw [Megachunk.decode, h] at hread
    exact Except.ok.inj hread
  have hrun := placeRecords_eq (Megachunk.cellsAt_of_parse h) (.empty c) a
  rw [hplaced] at hrun
  rw [decode, parse_eq, h]
  show ((.ok <$> found.foldlM (placeRecord data) (.empty c) :
    StateT Arena (Except Overread) (Except DecodeError Megachunk))).run a = _
  rw [StateT.run_map, hrun]
  rfl

end Bounded

/-! ## What is accepted -/

namespace Megachunk

/-- Well-formed data, with the number of records computed from the size. -/
theorem wellFormed_iff (data : ByteArray) :
    WellFormed data ↔
      10 ≤ data.size ∧ 12292 ∣ data.size - 10
        ∧ (∀ i < (data.size - 10) / 12292, (placeBytes data i).1 < 16
          ∧ (placeBytes data i).2.1 < 16 ∧ (placeBytes data i).2.2 < 16)
        ∧ ∀ i < (data.size - 10) / 12292, ∀ j < (data.size - 10) / 12292,
          placeBytes data i = placeBytes data j → i = j := by
  have hheader : headerSize = 10 := rfl
  have hrecord : recordSize = 12292 := rfl
  rw [WellFormed, hheader, hrecord]
  constructor
  · rintro ⟨n, hsize, hinside, hdistinct⟩
    have hn : (data.size - 10) / 12292 = n := by omega
    rw [hn]
    exact ⟨by omega, ⟨n, by omega⟩, hinside, hdistinct⟩
  · rintro ⟨hten, hwhole, hinside, hdistinct⟩
    exact ⟨(data.size - 10) / 12292, by omega, hinside, hdistinct⟩

theorem decode_ok_iff (data : ByteArray) (a : Arena) :
    (∃ m a', decode data a = .ok (m, a')) ↔ WellFormed data := by
  rw [← parse_ok_iff, decode]
  cases parse data with
  | error e => simp
  | ok found => exact ⟨fun _ => ⟨found.1, found.2, rfl⟩, fun _ => ⟨_, _, rfl⟩⟩

/-- Whatever the bytes and whatever has been done to the arena, reading a megachunk never asks for a
byte that is not there. It succeeds exactly if the data are a header and whole records, each of
which names a place by three bytes below sixteen, and no two the same. Then there is one chunk for
each record, at the place that the record names and with its cells, and the chunk counts as filled
if the first byte of the record is not zero. In all other cases the data are called corrupt, and the
arena is what it was. -/
theorem decode_grammar (data : ByteArray) (steps : List Arena.Step) :
    let a := Arena.run steps
    let n := (data.size - 10) / 12292
    ((∃ m a', decode data a = .ok (m, a')) ↔
        10 ≤ data.size ∧ 12292 ∣ data.size - 10
          ∧ (∀ i < n, (placeBytes data i).1 < 16 ∧ (placeBytes data i).2.1 < 16
            ∧ (placeBytes data i).2.2 < 16)
          ∧ ∀ i < n, ∀ j < n, placeBytes data i = placeBytes data j → i = j)
      ∧ (∀ m a', decode data a = .ok (m, a') →
        (Bounded.decode data).run a = .ok (.ok m, a')
          ∧ m.coord = decodeHeader data ∧ m.count = n ∧ m.Whole a'
          ∧ ∀ l d, m.chunk? a' l = some d ↔ ∃ i < n,
            placeBytes data i = (l.x.val.toUInt8, l.y.val.toUInt8, l.z.val.toUInt8)
              ∧ d = ⟨Chunk.decodeFrom data (10 + i * 12292 + 4),
                Chunk.byteAt data (10 + i * 12292) != 0, 0, 0⟩)
      ∧ ∀ e, decode data a = .error e →
        Fault.reasons e = [.corrupt] ∧ (Bounded.decode data).run a = .ok (.error e, a) := by
  intro a n
  refine ⟨(decode_ok_iff data a).trans (wellFormed_iff data), ?_, ?_⟩
  · intro m a' hread
    cases hparse : parse data with
    | error e =>
      rw [decode, hparse] at hread
      cases hread
    | ok found =>
      obtain ⟨c, records⟩ := found
      obtain ⟨m₁, a₁, hdecode, hfills⟩ := fills_decode hparse (Arena.sound_run steps)
      obtain ⟨rfl, rfl⟩ := Prod.mk.inj (Except.ok.inj (hread.symm.trans hdecode))
      refine ⟨Bounded.decode_of_ok hparse hread, hfills.coord.trans (parse_coord hparse),
        hfills.count_eq.trans (length_of_parse hparse), hfills.whole, fun l d => ?_⟩
      rw [hfills.chunk_eq l]
      exact recordedChunk?_of_parse hparse
  · intro e hrefused
    have hparse : parse data = .error e := by
      rw [decode] at hrefused
      cases hparse : parse data with
      | error e' =>
        rw [hparse] at hrefused
        exact congrArg Except.error (Except.error.inj hrefused)
      | ok found =>
        rw [hparse] at hrefused
        cases hrefused
    exact ⟨rfl, Bounded.decode_of_error hparse a⟩

end Megachunk

end BlockWorld
