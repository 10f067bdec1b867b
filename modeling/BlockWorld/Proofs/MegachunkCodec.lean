import BlockWorld.Proofs.Megachunk
import BlockWorld.Proofs.MegachunkHeader
import BlockWorld.Proofs.World.Placement
/-!
Megachunks as bytes and back. The bytes of a megachunk are its header and the bytes of one record
after the other (`toList_encode`), so that their number is known beforehand. Parsing them gives the
coordinate and records whose chunks are the ones that were written, with their damages rounded
(`parse_encode`). Chunks that have been read back are written as the same bytes (`encode_reloaded`).

How the proof goes. The bytes are a list: those before the first record (`toList_start`), then the records,
each with the same number of bytes (`length_recordBytes`). So the record with number `i` stands between two
known lists (`toList_split`, `length_before`), and reading there gives the place, the mark and the cells that
were written (`recordAt?_written`, `chunkData_written`). Parsing goes through the numbers of the records, and
it is refused only for places that are met twice; the chunks of a megachunk have different ones
(`chunks_places_nodup`).
-/
namespace BlockWorld

/-- What is left of a chunk that has been saved and loaded. -/
def ChunkData.reloaded (d : ChunkData) : ChunkData :=
  { ChunkData.fresh with chunk := d.chunk.quantized, generated := d.generated }

namespace Megachunk

open Grid Chunk

/-! ## Writing -/

/-- The bytes of a record. -/
def recordBytes (e : Local × ChunkData) : List UInt8 :=
  (if e.2.generated then 1 else 0) :: e.1.x.val.toUInt8 :: e.1.y.val.toUInt8 :: e.1.z.val.toUInt8
    :: e.2.chunk.bytes

theorem length_recordBytes (e : Local × ChunkData) : (recordBytes e).length = recordSize := by
  simp only [recordBytes, List.length_cons, length_bytes, recordSize]
  omega

theorem toList_appendRecord (out : ByteArray) (e : Local × ChunkData) :
    (appendRecord out e).data.toList = out.data.toList ++ recordBytes e := by
  simp only [appendRecord, toList_appendTo, toList_push, List.append_assoc, List.singleton_append]
  rfl

theorem size_appendRecord (out : ByteArray) (e : Local × ChunkData) :
    (appendRecord out e).size = out.size + recordSize := by
  rw [← length_toList_data, toList_appendRecord, List.length_append, length_toList_data,
    length_recordBytes]

theorem length_encodeHeader {c : Coord} {header : List UInt8} (h : encodeHeader c = .ok header) :
    header.length = headerSize := by
  simp only [encodeHeader] at h
  split at h
  · obtain rfl := Except.ok.inj h
    rfl
  · cases h

/-- The bytes before the first record. -/
def start (header : List UInt8) (room : Nat) : ByteArray :=
  header.foldl ByteArray.push (ByteArray.emptyWithCapacity room)

theorem toList_start (header : List UInt8) (room : Nat) :
    (start header room).data.toList = header := by
  rw [start, toList_foldl_push]
  rfl

theorem size_start {c : Coord} {header : List UInt8} (h : encodeHeader c = .ok header)
    (room : Nat) : (start header room).size = headerSize := by
  rw [← length_toList_data, toList_start, length_encodeHeader h]

theorem encode_of_error {m : Megachunk} {e : HeaderError} (h : encodeHeader m.coord = .error e)
    (a : Arena) : m.encode a = .error e := by
  unfold encode
  simp only [h]

theorem encode_of_ok {m : Megachunk} {header : List UInt8} (h : encodeHeader m.coord = .ok header)
    (a : Arena) :
    m.encode a = .ok ((m.chunks a).foldl appendRecord
      (start header (headerSize + m.count * recordSize))) := by
  unfold encode start
  simp only [h]

/-- The bytes of a megachunk are its header and its records. -/
theorem toList_encode {m : Megachunk} {a : Arena} {data : ByteArray} (h : m.encode a = .ok data) :
    ∃ header, encodeHeader m.coord = .ok header
      ∧ data.data.toList = header ++ (m.chunks a).flatMap recordBytes := by
  cases hheader : encodeHeader m.coord with
  | error e => cases (encode_of_error hheader a).symm.trans h
  | ok header =>
    have hdata := Except.ok.inj ((encode_of_ok hheader a).symm.trans h)
    refine ⟨header, rfl, ?_⟩
    rw [← hdata, toList_foldl_append toList_appendRecord, toList_start]

theorem length_chunks (m : Megachunk) (a : Arena) : (m.chunks a).length = m.occupied.length := by
  rw [chunks, List.length_map]

/-- A megachunk takes as many bytes as were set aside for it. -/
theorem size_encode {m : Megachunk} {a : Arena} {data : ByteArray}
    (hcount : m.count = m.occupied.length) (h : m.encode a = .ok data) :
    data.size = headerSize + m.count * recordSize := by
  obtain ⟨header, hheader, hdata⟩ := toList_encode h
  rw [← length_toList_data, hdata, List.length_append, length_encodeHeader hheader,
    length_flatMap_of_length length_recordBytes, length_chunks, hcount]

/-! ## Reading back -/

/-- The record that is read for the entry with number `i`. -/
def writtenRecord (i : Nat) (e : Local × ChunkData) : Record :=
  ⟨e.1, e.2.generated, headerSize + i * recordSize + 4⟩

theorem placeOfBytes?_val (l : Local) :
    placeOfBytes? l.x.val.toUInt8 l.y.val.toUInt8 l.z.val.toUInt8 = some l := by
  have hbyte : ∀ i : Fin 16, i.val.toUInt8.toNat = i.val := by decide
  simp only [placeOfBytes?, hbyte]
  rw [dif_pos ⟨l.x.isLt, l.y.isLt, l.z.isLt⟩]

section Written

variable {data : ByteArray} {header : List UInt8} {entries : List (Local × ChunkData)}

/-- Where the bytes of the record with number `i` stand. -/
theorem toList_split (hdata : data.data.toList = header ++ entries.flatMap recordBytes)
    {i : Nat} (hi : i < entries.length) :
    data.data.toList = (header ++ (entries.take i).flatMap recordBytes) ++ recordBytes entries[i]
      ++ (entries.drop (i + 1)).flatMap recordBytes := by
  rw [hdata, flatMap_eq_append recordBytes hi]
  simp only [List.append_assoc]

theorem length_before (hheader : header.length = headerSize) {i : Nat} (hi : i < entries.length) :
    (header ++ (entries.take i).flatMap recordBytes).length = headerSize + i * recordSize := by
  rw [List.length_append, hheader, length_flatMap_of_length length_recordBytes, List.length_take,
    Nat.min_eq_left (Nat.le_of_lt hi)]

/-- A record is read as it was written. -/
theorem recordAt?_written (hheader : header.length = headerSize)
    (hdata : data.data.toList = header ++ entries.flatMap recordBytes) {i : Nat}
    (hi : i < entries.length) :
    recordAt? data (headerSize + i * recordSize) = some (writtenRecord i entries[i]) := by
  have hbyte : ∀ k b, (recordBytes entries[i])[k]? = some b →
      byteAt data (headerSize + i * recordSize + k) = b := by
    intro k b hb
    obtain ⟨hk, rfl⟩ := List.getElem?_eq_some_iff.mp hb
    have hat := byteAt_of_toList (toList_split hdata hi) hk
    rwa [length_before hheader hi] at hat
  have hgenerated : (byteAt data (headerSize + i * recordSize) != 0) = entries[i].2.generated := by
    rw [← Nat.add_zero (headerSize + i * recordSize), hbyte 0 _ rfl]
    cases entries[i].2.generated <;> rfl
  rw [recordAt?, hbyte 1 _ rfl, hbyte 2 _ rfl, hbyte 3 _ rfl, placeOfBytes?_val, hgenerated]
  rfl

/-- The cells of a record are read as they were written, with their damages rounded. -/
theorem chunkData_written (hheader : header.length = headerSize)
    (hdata : data.data.toList = header ++ entries.flatMap recordBytes) {i : Nat}
    (hi : i < entries.length) :
    (writtenRecord i entries[i]).chunkData data = entries[i].2.reloaded := by
  let place := entries[i].1
  let front : List UInt8 := [if entries[i].2.generated then 1 else 0, place.x.val.toUInt8,
    place.y.val.toUInt8, place.z.val.toUInt8]
  have hrecord : recordBytes entries[i] = front ++ entries[i].2.chunk.bytes := rfl
  have hcells : data.data.toList
      = (header ++ (entries.take i).flatMap recordBytes ++ front) ++ entries[i].2.chunk.bytes
        ++ (entries.drop (i + 1)).flatMap recordBytes := by
    rw [toList_split hdata hi, hrecord]
    simp only [List.append_assoc]
  have hat : (header ++ (entries.take i).flatMap recordBytes ++ front).length
      = headerSize + i * recordSize + 4 := by
    rw [List.length_append, length_before hheader hi]
    rfl
  have hdecode := decodeFrom_of_toList hcells
  rw [hat] at hdecode
  rw [Record.chunkData, writtenRecord, hdecode]
  rfl

/-- What has been written parses, and gives the records that were written. -/
theorem parse_written (hheader : header.length = headerSize)
    (hdata : data.data.toList = header ++ entries.flatMap recordBytes)
    (hnodup : (entries.map (·.1)).Nodup) :
    parse data = .ok (decodeHeader data, entries.mapIdx writtenRecord) := by
  have hplaces : (entries.mapIdx writtenRecord).map (·.place) = entries.map (·.1) := by
    exact List.ext_getElem (by simp) (by simp [writtenRecord])
  rw [parse_eq_ok_iff]
  refine ⟨rfl, entries.length, ?_, ?_, hplaces ▸ hnodup⟩
  · rw [← length_toList_data, hdata, List.length_append, hheader,
      length_flatMap_of_length length_recordBytes]
  · refine List.ext_getElem (by simp) fun i hi _ => ?_
    rw [List.length_map, List.length_range] at hi
    rw [List.getElem_map, List.getElem_range, List.getElem_map, List.getElem_mapIdx]
    exact recordAt?_written hheader hdata hi

/-- The chunks that are read are those that were written, with their damages rounded. -/
theorem recordedChunk?_written (hheader : header.length = headerSize)
    (hdata : data.data.toList = header ++ entries.flatMap recordBytes)
    (hnodup : (entries.map (·.1)).Nodup) (l : Local) (d : ChunkData) :
    recordedChunk? data (entries.mapIdx writtenRecord) l = some d
      ↔ ∃ e ∈ entries, e.1 = l ∧ e.2.reloaded = d := by
  rw [recordedChunk?_eq_some_iff (parse_nodup (parse_written hheader hdata hnodup))]
  constructor
  · rintro ⟨r, hr, rfl, rfl⟩
    obtain ⟨i, hi, rfl⟩ := List.mem_mapIdx.mp hr
    exact ⟨entries[i], List.getElem_mem hi, rfl, (chunkData_written hheader hdata hi).symm⟩
  · rintro ⟨e, he, rfl, rfl⟩
    obtain ⟨i, hi, rfl⟩ := List.getElem_of_mem he
    exact ⟨writtenRecord i entries[i], List.mem_mapIdx.mpr ⟨i, hi, rfl⟩, rfl,
      chunkData_written hheader hdata hi⟩

end Written

/-! ## Megachunks -/

/-- The chunks of a megachunk are all in an arena. -/
def HeldBy (m : Megachunk) (a : Arena) : Prop :=
  ∀ l h, m.handle? l = some h → a.isAllocated h = true

section Held

variable {m : Megachunk} {a : Arena}

theorem chunks_eq (hm : m.HeldBy a) :
    m.chunks a = Local.all.filterMap fun l => (m.chunk? a l).map fun d => (l, d) := by
  rw [chunks, occupied_eq, List.map_filterMap]
  refine List.filterMap_congr fun l _ => ?_
  rw [chunk?]
  cases hl : m.handle? l with
  | none => rfl
  | some h =>
    rw [Option.bind_some, Arena.get?, if_pos (hm l h hl)]
    rfl

theorem mem_chunks (hm : m.HeldBy a) {l : Local} {d : ChunkData} :
    (l, d) ∈ m.chunks a ↔ m.chunk? a l = some d := by
  rw [chunks_eq hm, List.mem_filterMap]
  constructor
  · rintro ⟨k, -, hk⟩
    obtain ⟨d', hd, he⟩ := Option.map_eq_some_iff.mp hk
    obtain ⟨rfl, rfl⟩ := Prod.mk.inj he
    exact hd
  · intro hd
    exact ⟨l, Local.mem_all l, by rw [hd]; rfl⟩

theorem chunks_places_nodup (hm : m.HeldBy a) : ((m.chunks a).map (·.1)).Nodup := by
  rw [chunks_eq hm, List.map_filterMap]
  refine Local.all_nodup.filterMap fun l k p hl hk => ?_
  simp only [Option.map_map, Option.mem_def, Option.map_eq_some_iff, Function.comp_apply] at hl hk
  obtain ⟨-, -, rfl⟩ := hl
  obtain ⟨-, -, rfl⟩ := hk
  rfl

/-- A megachunk that has been written is read back, with the damages of its chunks rounded. -/
theorem parse_encode {data : ByteArray} (hm : m.HeldBy a) (hc : m.coord.Negatable)
    (h : m.encode a = .ok data) :
    ∃ records, parse data = .ok (m.coord, records)
      ∧ ∀ l, recordedChunk? data records l = (m.chunk? a l).map ChunkData.reloaded := by
  obtain ⟨header, hheader, hdata⟩ := toList_encode h
  have hlen := length_encodeHeader hheader
  have hnodup := chunks_places_nodup hm
  have hparse := parse_written hlen hdata hnodup
  rw [decodeHeader_encode hc hheader hdata] at hparse
  refine ⟨_, hparse, fun l => Option.ext fun d => ?_⟩
  rw [recordedChunk?_written hlen hdata hnodup, Option.map_eq_some_iff]
  constructor
  · rintro ⟨⟨_, d'⟩, he, rfl, hd⟩
    exact ⟨d', (mem_chunks hm).mp he, hd⟩
  · rintro ⟨d', hd', hd⟩
    exact ⟨(l, d'), (mem_chunks hm).mpr hd', rfl, hd⟩

theorem recordBytes_reloaded (l : Local) (d : ChunkData) :
    recordBytes (l, d.reloaded) = recordBytes (l, d) := by
  rw [recordBytes, recordBytes, ChunkData.reloaded, bytes_quantized]

/-- A megachunk whose chunks have been read back is written as the same bytes. -/
theorem encode_reloaded {m' : Megachunk} {a' : Arena} (hm : m.HeldBy a) (hm' : m'.HeldBy a')
    (hcoord : m'.coord = m.coord)
    (hchunks : ∀ l, m'.chunk? a' l = (m.chunk? a l).map ChunkData.reloaded) :
    m'.encode a' = m.encode a := by
  have hentries : m'.chunks a' = (m.chunks a).map fun e => (e.1, e.2.reloaded) := by
    rw [chunks_eq hm, chunks_eq hm', List.map_filterMap]
    refine List.filterMap_congr fun l _ => ?_
    rw [hchunks, Option.map_map, Option.map_map]
    rfl
  have hbytes : (m'.chunks a').flatMap recordBytes = (m.chunks a).flatMap recordBytes := by
    rw [hentries, List.flatMap_map]
    exact congrArg (m.chunks a).flatMap (funext fun e => recordBytes_reloaded e.1 e.2)
  cases hheader : encodeHeader m.coord with
  | error e => rw [encode_of_error hheader, encode_of_error (hcoord ▸ hheader)]
  | ok header =>
    rw [encode_of_ok hheader, encode_of_ok (hcoord ▸ hheader)]
    refine congrArg Except.ok (eq_of_toList_data ?_)
    rw [toList_foldl_append toList_appendRecord, toList_foldl_append toList_appendRecord,
      toList_start, toList_start, hbytes]

end Held

end Megachunk

end BlockWorld
