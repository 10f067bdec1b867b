import BlockWorld.Proofs.MegachunkReading
/-!
Megachunks that are read and written again. A file keeps what it says and loses how it says it: the
bits of the header that mean nothing are cleared, the records stand in the order of their places, and
their marks are 0 or 1 (`canonical`). The bytes of the cells stay as they are. So a file that has been
written is written again as it is (`canonical_eq_self_iff`), except for one kind: the header of a
coordinate with the least 64-bit integer in it is read as another coordinate
(`decodeHeader_of_encode`).

How the proof goes. The cells of a record come back byte by byte, so the record that is written for a chunk
differs from the one it was read from in its mark alone (`recordBytes_of_recordAt?`). The records that are
written stand in the order of their places (`pairwise_recordBytes`), and they are those of the data in another
order (`perm_chunks`). Two sorted lists of the same records without repetitions are equal, so sorting the
records of the data gives what is written (`chunks_of_parse`). With the header (`encodeHeader_decodeHeader`)
this is `encode_of_decode`, and `decode_encode_canonical` says it of every file and every arena. The exception
is looked at by itself: which coordinates pass the test of the header although they do not fit
(`encodeHeader_reread`), and what becomes of the one kind that does (`encodeHeader_least`, `recode_least`).
-/
namespace BlockWorld.Megachunk

open Grid Chunk

variable {data : ByteArray} {m : Megachunk} {a : Arena}

/-! ## The coordinate in the header -/

/-- The bytes of a megachunk, with those of the header written out. -/
theorem toList_of_encode (h : m.encode a = .ok data) :
    AllPass m.coord ∧ data.data.toList = headerBytes m.coord ++ (m.chunks a).flatMap recordBytes := by
  obtain ⟨header, hheader, hdata⟩ := toList_encode h
  obtain ⟨hpass, rfl⟩ := encodeHeader_eq_ok_iff.mp hheader
  exact ⟨hpass, hdata⟩

/-- The coordinate in the file of a megachunk. -/
theorem decodeHeader_of_encode (h : m.encode a = .ok data) :
    decodeHeader data = rereadCoord m.coord := by
  obtain ⟨hpass, hdata⟩ := toList_of_encode h
  exact decodeHeader_header hpass hdata

theorem not_allPass_iff {c : Coord} :
    ¬AllPass c ↔ ∃ v ∈ [c.x, c.y, c.z], v ≠ Int64.minValue ∧ 0xFFFFFF < v.toInt.natAbs := by
  have hnot : ∀ v, ¬Passes v ↔ v ≠ Int64.minValue ∧ 0xFFFFFF < v.toInt.natAbs := by
    intro v
    rw [Passes, not_or, Nat.not_le]
  simp only [AllPass, not_and_or, hnot, List.mem_cons, List.not_mem_nil, or_false,
    exists_eq_or_imp, exists_eq_left]

/-- A coordinate is refused as out of range if and only if a component has more than three bytes and is
not the least 64-bit integer. Otherwise ten bytes are written, and the least integer is read from them
as zero. So the coordinate that is read, from the header alone or from the file of a megachunk, is
the one that was written if and only if the least integer is not among its components. -/
theorem encodeHeader_reread (c : Coord) :
    ((∃ e, encodeHeader c = .error e ∧ Fault.reasons e = [.outOfRange])
        ↔ ∃ v ∈ [c.x, c.y, c.z], v ≠ Int64.minValue ∧ 0xFFFFFF < v.toInt.natAbs)
      ∧ (∀ header, encodeHeader c = .ok header →
        header.length = 10 ∧ decodeHeader ⟨header.toArray⟩ = rereadCoord c
          ∧ (decodeHeader ⟨header.toArray⟩ = c ↔ c.Negatable))
      ∧ ∀ (m : Megachunk) (a : Arena) (data : ByteArray), m.coord = c → m.encode a = .ok data →
        decodeHeader data = rereadCoord c ∧ (decodeHeader data = c ↔ c.Negatable) := by
  refine ⟨?_, fun header h => ?_, fun m a data hc h => ?_⟩
  · rw [← not_allPass_iff]
    constructor
    · rintro ⟨e, he, -⟩ hpass
      rw [encodeHeader_of_allPass hpass] at he
      cases he
    · intro hpass
      exact ⟨⟨c⟩, encodeHeader_of_not_allPass hpass, rfl⟩
  · obtain ⟨hpass, rfl⟩ := encodeHeader_eq_ok_iff.mp h
    have hread : decodeHeader ⟨(headerBytes c).toArray⟩ = rereadCoord c :=
      decodeHeader_header hpass (List.append_nil _).symm
    exact ⟨rfl, hread, by rw [hread, rereadCoord_eq_self_iff]⟩
  · subst hc
    have hread := decodeHeader_of_encode h
    exact ⟨hread, by rw [hread, rereadCoord_eq_self_iff]⟩

/-- The outermost components of three bytes, and the least integer between them. -/
theorem encodeHeader_reread_border :
    let c : Coord := ⟨-0xFFFFFF, Int64.minValue, 0xFFFFFF⟩
    ∃ header data, encodeHeader c = .ok header ∧ (empty c).encode .empty = .ok data
      ∧ decodeHeader ⟨header.toArray⟩ = ⟨-0xFFFFFF, 0, 0xFFFFFF⟩
      ∧ decodeHeader data = ⟨-0xFFFFFF, 0, 0xFFFFFF⟩ ∧ decodeHeader data ≠ c := by
  intro c
  have hpass : AllPass c := ⟨.inr (by decide), .inl rfl, .inr (by decide)⟩
  have hheader := encodeHeader_of_allPass hpass
  have hdata := encode_of_ok (m := empty c) hheader .empty
  have hc : rereadCoord c = ⟨-0xFFFFFF, 0, 0xFFFFFF⟩ := by decide +kernel
  obtain ⟨-, halone, hfile⟩ := encodeHeader_reread c
  obtain ⟨hread, hsame⟩ := hfile _ _ _ rfl hdata
  refine ⟨_, _, hheader, hdata, (halone _ hheader).2.1.trans hc, hread.trans hc, fun h => ?_⟩
  exact (hsame.mp h).2.1 rfl

/-- The least integer is not refused, and its header is that of zero but for the sign. -/
theorem encodeHeader_least :
    encodeHeader ⟨Int64.minValue, 0, 0⟩ = .ok [4, 0, 0, 0, 0, 0, 0, 0, 0, 0]
      ∧ decodeHeader ⟨#[4, 0, 0, 0, 0, 0, 0, 0, 0, 0]⟩ = ⟨0, 0, 0⟩ := by
  decide +kernel

/-! ## Records as bytes -/

/-- The bytes of the record with number `i`. -/
def rawRecord (data : ByteArray) (i : Nat) : List UInt8 :=
  (data.data.toList.drop (headerSize + i * recordSize)).take recordSize

/-- The bytes of all records, one record after the other. -/
def rawRecords (data : ByteArray) : List (List UInt8) :=
  (List.range ((data.size - headerSize) / recordSize)).map (rawRecord data)

/-- The number of the place that a record names. -/
def slotNumber (r : List UInt8) : Nat :=
  (r.getD 3 0).toNat * 256 + (r.getD 2 0).toNat * 16 + (r.getD 1 0).toNat

/-- The order of the places. -/
def slotOrder (r s : List UInt8) : Bool := slotNumber r ≤ slotNumber s

/-- A record with 0 or 1 for its mark. -/
def normalised (r : List UInt8) : List UInt8 := (if r.headD 0 = 0 then 0 else 1) :: r.tail

/-- What some data say, in the one way that it is written. -/
def canonical (data : ByteArray) : List UInt8 :=
  canonicalHeader data ++ ((rawRecords data).mergeSort slotOrder).flatMap normalised

theorem slotNumber_normalised (r : List UInt8) : slotNumber (normalised r) = slotNumber r := by
  cases r <;> rfl

theorem slotOrder_normalised (r s : List UInt8) :
    slotOrder (normalised r) (normalised s) = slotOrder r s := by
  rw [slotOrder, slotOrder, slotNumber_normalised, slotNumber_normalised]

theorem slotOrder_trans (r s t : List UInt8) (hrs : slotOrder r s = true)
    (hst : slotOrder s t = true) : slotOrder r t = true :=
  decide_eq_true (Nat.le_trans (of_decide_eq_true hrs) (of_decide_eq_true hst))

theorem slotOrder_total (r s : List UInt8) : (slotOrder r s || slotOrder s r) = true := by
  simp only [slotOrder, Bool.or_eq_true, decide_eq_true_eq]
  exact Nat.le_total ..

theorem slotNumber_recordBytes (e : Local × ChunkData) :
    slotNumber (recordBytes e) = e.1.index.val := by
  have hbyte : ∀ i : Fin 16, i.val.toUInt8.toNat = i.val := by decide
  simp only [slotNumber, recordBytes, List.getD_cons_succ, List.getD_cons_zero, hbyte, Local.index]

theorem normalised_recordBytes (e : Local × ChunkData) :
    normalised (recordBytes e) = recordBytes e := by
  obtain ⟨l, d⟩ := e
  cases hmark : d.generated <;> simp [normalised, recordBytes, hmark]

/-- The record of a chunk that has been read has the bytes that it was read from, but for the mark. -/
theorem recordBytes_of_recordAt? {i : Nat} {r : Record}
    (h : recordAt? data (headerSize + i * recordSize) = some r)
    (hsize : headerSize + i * recordSize + recordSize ≤ data.size) :
    recordBytes (r.place, r.chunkData data) = normalised (rawRecord data i) := by
  obtain ⟨l, hl, rfl⟩ := Option.map_eq_some_iff.mp h
  obtain ⟨hx, hy, hz⟩ : _ ∧ _ ∧ _ := by
    simpa only [Prod.mk.injEq] using placeOfBytes?_eq_some_iff.mp hl
  have hraw : rawRecord data i
      = (List.range (4 + encodedSize)).map fun k => byteAt data (headerSize + i * recordSize + k) :=
    take_drop_toList hsize
  have hfour : ∀ f : Nat → UInt8, (List.range 4).map f = [f 0, f 1, f 2, f 3] := fun _ => rfl
  rw [hraw, List.range_add, List.map_append, List.map_map, hfour]
  simp only [recordBytes, Record.chunkData, bytes_decodeFrom, ← hx, ← hy, ← hz, Nat.add_assoc]
  by_cases hmark : byteAt data (headerSize + i * recordSize) = 0 <;>
    simp [normalised, hmark, Function.comp_def]

/-! ## The order of the records -/

/-- The chunks of a megachunk come in the order of their places. -/
theorem pairwise_chunks (m : Megachunk) (a : Arena) :
    (m.chunks a).Pairwise fun e f => e.1.index < f.1.index := by
  have hall : Local.all.Pairwise fun l k => l.index < k.index := by
    rw [Local.all, List.pairwise_map]
    simp only [Local.index_ofIndex]
    exact List.pairwise_lt_finRange volume
  rw [chunks, List.pairwise_map, occupied_eq, List.pairwise_filterMap]
  refine hall.imp fun {l k} hlt e he f hf => ?_
  obtain ⟨-, -, rfl⟩ := Option.map_eq_some_iff.mp he
  obtain ⟨-, -, rfl⟩ := Option.map_eq_some_iff.mp hf
  exact hlt

theorem pairwise_recordBytes (m : Megachunk) (a : Arena) :
    ((m.chunks a).map recordBytes).Pairwise fun r s => slotOrder r s = true := by
  rw [List.pairwise_map]
  refine (pairwise_chunks m a).imp fun {e f} hlt => ?_
  rw [slotOrder, slotNumber_recordBytes, slotNumber_recordBytes]
  exact decide_eq_true (Nat.le_of_lt hlt)

/-- No two records of a megachunk name the same place. -/
theorem eq_of_slotNumber {r s : List UInt8} (hr : r ∈ (m.chunks a).map recordBytes)
    (hs : s ∈ (m.chunks a).map recordBytes) (h : slotNumber r = slotNumber s) : r = s := by
  have hnodup : ((m.chunks a).map fun e => e.1.index.val).Nodup := by
    rw [List.Nodup, List.pairwise_map]
    exact (pairwise_chunks m a).imp fun hlt => Nat.ne_of_lt hlt
  obtain ⟨e, he, rfl⟩ := List.mem_map.mp hr
  obtain ⟨f, hf, rfl⟩ := List.mem_map.mp hs
  rw [slotNumber_recordBytes, slotNumber_recordBytes] at h
  rw [List.inj_on_of_nodup_map hnodup he hf h]

/-- The chunks that have been read are those of the records, in another order. -/
theorem perm_chunks {records : List Record} (hm : m.HeldBy a)
    (hnodup : (records.map (·.place)).Nodup)
    (hread : ∀ l, m.chunk? a l = recordedChunk? data records l) :
    (m.chunks a).Perm (records.map fun r => (r.place, r.chunkData data)) := by
  have hentries : (records.map fun r => (r.place, r.chunkData data)).Nodup := by
    apply List.Nodup.of_map Prod.fst
    rw [List.map_map]
    exact hnodup
  -- No entry stands twice on either side, so it is enough to compare what stands there at all.
  refine (List.perm_ext_iff_of_nodup (chunks_places_nodup hm).of_map hentries).mpr fun e => ?_
  obtain ⟨l, d⟩ := e
  rw [mem_chunks hm, hread, recordedChunk?_eq_some_iff hnodup, List.mem_map]
  simp only [Prod.mk.injEq]

/-- The records that are written are those that were read, with marks of 0 and 1. -/
theorem map_recordBytes {c : Coord} {records : List Record} (h : parse data = .ok (c, records)) :
    (records.map fun r => (r.place, r.chunkData data)).map recordBytes
      = (rawRecords data).map normalised := by
  obtain ⟨-, n, hsize, hmap, -⟩ := (parse_eq_ok_iff ..).mp h
  have hlength := length_of_parse h
  have hn : (data.size - headerSize) / recordSize = n := by
    rw [hsize, Nat.add_sub_cancel_left, Nat.mul_div_cancel _ recordSize_pos]
  apply List.ext_getElem
  · simp [rawRecords, hlength]
  · intro i hi hi'
    simp only [List.length_map] at hi
    simp only [rawRecords, List.getElem_map, List.getElem_range]
    refine recordBytes_of_recordAt? (recordAt?_getElem hmap hi) ?_
    have hroom : (i + 1) * recordSize ≤ n * recordSize := Nat.mul_le_mul_right _ (by omega)
    rw [Nat.succ_mul] at hroom
    omega

/-- Sorting the records of the data gives the records of the megachunk that is read from them. -/
theorem chunks_of_parse {c : Coord} {records : List Record} (h : parse data = .ok (c, records))
    (hm : m.HeldBy a) (hread : ∀ l, m.chunk? a l = recordedChunk? data records l) :
    (m.chunks a).map recordBytes = ((rawRecords data).mergeSort slotOrder).map normalised := by
  have hperm : ((m.chunks a).map recordBytes).Perm
      (((rawRecords data).mergeSort slotOrder).map normalised) := by
    refine ((perm_chunks hm (parse_nodup h) hread).map recordBytes).trans ?_
    rw [map_recordBytes h]
    exact (List.mergeSort_perm ..).symm.map normalised
  -- Both sides are in order, and no two records share a place: so the order leaves no choice.
  refine hperm.eq_of_pairwise (fun r s hr hs hle hge => ?_) (pairwise_recordBytes m a) ?_
  · exact eq_of_slotNumber hr (hperm.mem_iff.mpr hs)
      (Nat.le_antisymm (of_decide_eq_true hle) (of_decide_eq_true hge))
  · rw [List.pairwise_map]
    simp only [slotOrder_normalised]
    exact List.pairwise_mergeSort slotOrder_trans slotOrder_total _

/-! ## Files that have been written -/

section Written

variable {header : List UInt8} {entries : List (Local × ChunkData)}

theorem rawRecords_written (hheader : header.length = headerSize)
    (hdata : data.data.toList = header ++ entries.flatMap recordBytes) :
    rawRecords data = entries.map recordBytes := by
  have hcount : (data.size - headerSize) / recordSize = entries.length := by
    rw [← length_toList_data, hdata, List.length_append, hheader,
      length_flatMap_of_length length_recordBytes, Nat.add_sub_cancel_left,
      Nat.mul_div_cancel _ recordSize_pos]
  apply List.ext_getElem
  · simp [rawRecords, hcount]
  · intro i _ hi
    rw [List.length_map] at hi
    simp only [rawRecords, List.getElem_map, List.getElem_range]
    rw [rawRecord, toList_split hdata hi, ← length_before hheader hi, List.append_assoc,
      List.drop_left, ← length_recordBytes entries[i], List.take_left]

end Written

/-- The records of a file that has been written are in order, with marks of 0 and 1. -/
theorem canonical_of_encode (h : m.encode a = .ok data) :
    canonical data = canonicalHeader data ++ (m.chunks a).flatMap recordBytes := by
  obtain ⟨-, hdata⟩ := toList_of_encode h
  rw [canonical, rawRecords_written rfl hdata, List.mergeSort_of_pairwise (pairwise_recordBytes m a),
    List.flatMap_map]
  simp only [normalised_recordBytes]

theorem canonicalHeader_eq_iff (h : m.encode a = .ok data) :
    canonicalHeader data = headerBytes m.coord ↔ m.coord.Negatable := by
  have hread := decodeHeader_of_encode h
  have hwritten := encodeHeader_decodeHeader data
  rw [hread] at hwritten
  rw [(encodeHeader_eq_ok_iff.mp hwritten).2, headerBytes_rereadCoord_iff]

/-- A file that has been written is the one way to say what it says, unless its coordinate does not
come back. -/
theorem canonical_eq_self_iff (h : m.encode a = .ok data) :
    canonical data = data.data.toList ↔ m.coord.Negatable := by
  obtain ⟨-, hdata⟩ := toList_of_encode h
  rw [canonical_of_encode h, hdata, List.append_left_inj, canonicalHeader_eq_iff h]

/-! ## Reading and writing again -/

/-- What has been written can be read, also if the coordinate does not come back. -/
theorem decode_of_encode (hm : m.HeldBy a) (h : m.encode a = .ok data) {b : Arena} (hs : b.Sound) :
    ∃ m' b', decode data b = .ok (m', b') := by
  obtain ⟨-, hdata⟩ := toList_of_encode h
  obtain ⟨m', b', hdecode, -⟩ :=
    fills_decode (parse_written rfl hdata (chunks_places_nodup hm)) hs
  exact ⟨m', b', hdecode⟩

/-- A megachunk that has been read is written in the one way that says the same. -/
theorem encode_of_decode {b : Arena} (hs : b.Sound) (h : decode data b = .ok (m, a)) :
    ∃ out, m.encode a = .ok out ∧ Checked.encode m a = .ok (.ok out) ∧ out.size = data.size
      ∧ out.data.toList = canonical data := by
  obtain ⟨c, records, hparse, hfills⟩ := fills_of_decode hs h
  have hcoord : m.coord = decodeHeader data := hfills.coord.trans (parse_coord hparse)
  obtain ⟨out, hout, hchecked, hsize⟩ := hfills.whole.encode (hcoord ▸ inRange_decodeHeader data)
  refine ⟨out, hout, hchecked, ?_, ?_⟩
  · obtain ⟨-, n, hn, -, -⟩ := (parse_eq_ok_iff ..).mp hparse
    rw [hsize, hfills.count_eq, length_of_parse hparse, hn, Nat.add_sub_cancel_left,
      Nat.mul_div_cancel _ recordSize_pos]
  · obtain ⟨header, hheader, htext⟩ := toList_encode hout
    rw [hcoord, encodeHeader_decodeHeader] at hheader
    rw [htext, ← Except.ok.inj hheader, canonical, List.flatMap_def, List.flatMap_def,
      chunks_of_parse hparse hfills.whole.held hfills.chunk_eq]

/-- Writing what has been read changes nothing exactly if the data say it in the one way. -/
theorem eq_iff_canonical {out : ByteArray} (hout : out.data.toList = canonical data) :
    out = data ↔ canonical data = data.data.toList := by
  rw [← hout]
  constructor
  · rintro rfl
    rfl
  · exact eq_of_toList_data

/-- A megachunk that has been read from any data, into any arena, is written without a test failing,
as data of the same size: the header without the bits that mean nothing, and the records in the order
of their places, with marks of 0 and 1 and all their other bytes as they were. Data that were written
for a megachunk stay as they are if and only if its coordinate has no component that is the least
64-bit integer. What has been written again is read in all arenas, and written once more as it is. -/
theorem decode_encode_canonical (data : ByteArray) (steps : List Arena.Step) (m : Megachunk)
    (a : Arena) (h : decode data (Arena.run steps) = .ok (m, a)) :
    ∃ out, m.encode a = .ok out ∧ Checked.encode m a = .ok (.ok out) ∧ out.size = data.size
      ∧ out.data.toList
        = canonicalHeader data ++ ((rawRecords data).mergeSort slotOrder).flatMap normalised
      ∧ (∀ m₀ a₀, encode m₀ a₀ = .ok data → (out = data ↔ m₀.coord.Negatable))
      ∧ ∀ steps', ∃ m' a', decode out (Arena.run steps') = .ok (m', a') ∧ m'.encode a' = .ok out := by
  have hs := Arena.sound_run steps
  obtain ⟨out, hout, hchecked, hsize, htext⟩ := encode_of_decode hs h
  refine ⟨out, hout, hchecked, hsize, htext, fun m₀ a₀ h₀ => ?_, fun steps' => ?_⟩
  · rw [eq_iff_canonical htext, canonical_eq_self_iff h₀]
  · obtain ⟨c, records, hparse, hfills⟩ := fills_of_decode hs h
    have hcoord : m.coord = decodeHeader data := hfills.coord.trans (parse_coord hparse)
    obtain ⟨m', a', hread⟩ := decode_of_encode hfills.whole.held hout (Arena.sound_run steps')
    obtain ⟨out', hout', -, -, htext'⟩ := encode_of_decode (Arena.sound_run steps') hread
    refine ⟨m', a', hread, ?_⟩
    -- A coordinate that came out of a header is in range, whatever the header was.
    have hsame := (canonical_eq_self_iff hout).mpr (hcoord ▸ inRange_decodeHeader data).negatable
    rw [hout', (eq_iff_canonical htext').mpr hsame]

/-- Two records out of order, behind a header with a sign before a zero and bits that mean nothing. -/
theorem decode_encode_canonical_two :
    let header : List UInt8 := [254, 0, 0, 0, 0, 0, 5, 0, 0, 0]
    let far : Local × ChunkData := (⟨3, 0, 0⟩, { ChunkData.fresh with generated := true })
    let near : Local × ChunkData := (⟨1, 0, 0⟩, .fresh)
    let data : ByteArray := ⟨(header ++ [far, near].flatMap recordBytes).toArray⟩
    ∃ m a out, decode data (Arena.run [.allocate, .free 0]) = .ok (m, a) ∧ m.encode a = .ok out
      ∧ out.size = 24594 ∧ out.data.toList
        = [2, 0, 0, 0, 0, 0, 5, 0, 0, 0] ++ [near, far].flatMap recordBytes := by
  intro header far near data
  have hdata : data.data.toList = header ++ [far, near].flatMap recordBytes := rfl
  have hnodup : ([far, near].map (·.1)).Nodup := by decide
  obtain ⟨m, a, hread, -⟩ := fills_decode (parse_written rfl hdata hnodup)
    (Arena.sound_run [.allocate, .free 0])
  obtain ⟨out, hout, -, hsize, htext, -⟩ := decode_encode_canonical data _ m a hread
  have hheader : canonicalHeader data = canonicalHeader ⟨header.toArray⟩ :=
    canonicalHeader_congr fun k hk => by
      have hat := @byteAt_of_toList data [] header _ hdata k hk
      have hat' := @byteAt_of_toList ⟨header.toArray⟩ [] header [] rfl k hk
      rw [List.length_nil, Nat.zero_add] at hat hat'
      rw [hat, hat']
  have horder : slotOrder (recordBytes far) (recordBytes near) = false := by
    rw [slotOrder, slotNumber_recordBytes, slotNumber_recordBytes]
    decide
  refine ⟨m, a, out, hread, hout, ?_, ?_⟩
  · rw [hsize, ← length_toList_data, hdata, List.length_append,
      length_flatMap_of_length length_recordBytes]
    show 10 + 2 * 12292 = 24594
    decide
  · have hsorted : [recordBytes far, recordBytes near].mergeSort slotOrder
        = [recordBytes near, recordBytes far] := by
      simp [List.mergeSort, horder]
    have hrecords : rawRecords data = [recordBytes far, recordBytes near] :=
      rawRecords_written rfl hdata
    have hten : canonicalHeader ⟨header.toArray⟩ = [2, 0, 0, 0, 0, 0, 5, 0, 0, 0] := by decide +kernel
    rw [htext, hheader, hten, hrecords, hsorted]
    simp only [List.flatMap_cons, List.flatMap_nil, normalised_recordBytes]

/-- The sign of a zero is lost when the file of a megachunk is read and written again. -/
theorem recode_least :
    ∃ data m a out, (empty ⟨Int64.minValue, 0, 0⟩).encode .empty = .ok data
      ∧ decode data .empty = .ok (m, a) ∧ m.encode a = .ok out ∧ out ≠ data := by
  let c : Coord := ⟨Int64.minValue, 0, 0⟩
  have hpass : AllPass c := ⟨.inl rfl, .inr (by decide), .inr (by decide)⟩
  have hwritten := encode_of_ok (m := empty c) (encodeHeader_of_allPass hpass) .empty
  obtain ⟨m, a, hread⟩ := decode_of_encode (whole_empty c .empty).held hwritten Arena.sound_empty
  obtain ⟨out, hout, -, -, htext⟩ := encode_of_decode Arena.sound_empty hread
  refine ⟨_, m, a, out, hwritten, hread, hout, fun h => ?_⟩
  have hsame := (canonical_eq_self_iff hwritten).mp ((eq_iff_canonical htext).mp h)
  exact hsame.1 rfl

end BlockWorld.Megachunk
