import Mathlib.Data.List.Nodup
import BlockWorld.Megachunk.Codec
/-!
Which bytes are a megachunk. Parsing accepts data exactly when they are a header and a whole number
of records whose places exist and differ (`parse_ok_iff`); what it gives is the coordinate of the
header and one record after the other.

The parser goes through the records by their number and carries the places that it has met.
`decodeRecords_eq_ok_iff` is the induction, on the number of records left: what is read is the list of the
records at the following positions, if all of their places exist, differ from each other, and are none of
those carried along. Started with no place at all this is `parse_eq_ok_iff`. Places are compared by their
bytes (`placeOfBytes?_inj`), so that `WellFormed` can speak of the data alone.
-/
namespace BlockWorld.Megachunk

open Grid Chunk

/-! ## Records -/

/-- The three bytes with the place of the record with number `i`. -/
def placeBytes (data : ByteArray) (i : Nat) : UInt8 × UInt8 × UInt8 :=
  let start := headerSize + i * recordSize
  (byteAt data (start + 1), byteAt data (start + 2), byteAt data (start + 3))

/-- Data that are a header and whole records, whose places lie in the megachunk and differ. -/
def WellFormed (data : ByteArray) : Prop :=
  ∃ n, data.size = headerSize + n * recordSize
    ∧ (∀ i < n, (placeBytes data i).1 < 16 ∧ (placeBytes data i).2.1 < 16
        ∧ (placeBytes data i).2.2 < 16)
    ∧ ∀ i < n, ∀ j < n, placeBytes data i = placeBytes data j → i = j

/-- The record whose bytes start at a position, if its place exists. -/
def recordAt? (data : ByteArray) (start : Nat) : Option Record :=
  (placeOfBytes? (byteAt data (start + 1)) (byteAt data (start + 2)) (byteAt data (start + 3))).map
    fun l => ⟨l, byteAt data start != 0, start + 4⟩

theorem placeOfBytes?_isSome {x y z : UInt8} :
    (placeOfBytes? x y z).isSome = true ↔ x < 16 ∧ y < 16 ∧ z < 16 := by
  simp only [placeOfBytes?, UInt8.lt_iff_toNat_lt, UInt8.reduceToNat]
  split <;> simp_all

/-- Bytes name different places if they differ. -/
theorem placeOfBytes?_inj {x y z x' y' z' : UInt8} {l : Local} (h : placeOfBytes? x y z = some l)
    (h' : placeOfBytes? x' y' z' = some l) : (x, y, z) = (x', y', z') := by
  simp only [placeOfBytes?] at h h'
  split at h
  · split at h'
    · have he := (Option.some.inj h).trans (Option.some.inj h').symm
      simp only [Local.mk.injEq, Fin.mk.injEq, UInt8.toNat_inj] at he
      rw [he.1, he.2.1, he.2.2]
    · cases h'
  · cases h

/-- Reading records gives what stands in the data, if all places exist, differ, and are none of
those before. -/
theorem decodeRecords_eq_ok_iff (mega : Coord) (data : ByteArray) (n start : Nat)
    (seen : List Local) (records : List Record) :
    decodeRecords mega data n start seen = .ok records
      ↔ (List.range n).map (fun i => recordAt? data (start + i * recordSize))
            = records.map some
          ∧ (records.map (·.place)).Nodup ∧ ∀ r ∈ records, r.place ∉ seen := by
  induction n generalizing start seen records with
  | zero =>
    cases records with
    | nil => simp [decodeRecords]
    | cons r records => simp [decodeRecords]
  | succ n ih =>
    have hshift : (List.range (n + 1)).map (fun i => recordAt? data (start + i * recordSize))
        = recordAt? data start
          :: (List.range n).map fun i => recordAt? data (start + recordSize + i * recordSize) := by
      rw [List.range_succ_eq_map, List.map_cons, List.map_map, Nat.zero_mul, Nat.add_zero]
      congr 1
      refine List.map_congr_left fun i _ => ?_
      rw [Function.comp_apply, Nat.succ_mul, Nat.add_comm (i * recordSize), ← Nat.add_assoc]
    rw [hshift, decodeRecords]
    cases hp : placeOfBytes? (byteAt data (start + 1)) (byteAt data (start + 2))
        (byteAt data (start + 3)) with
    | none =>
      cases records with
      | nil => simp
      | cons r records => simp [recordAt?, hp]
    | some l =>
      have hhead : recordAt? data start = some ⟨l, byteAt data start != 0, start + 4⟩ := by
        rw [recordAt?, hp, Option.map_some]
      rw [hhead]
      by_cases hl : l ∈ seen
      · simp only [if_pos hl, reduceCtorEq, false_iff, not_and]
        intro hrecords _ hnew
        cases records with
        | nil => cases hrecords
        | cons r records =>
          rw [List.map_cons, List.cons.injEq, Option.some.injEq] at hrecords
          exact hnew r List.mem_cons_self (hrecords.1 ▸ hl)
      · simp only [if_neg hl]
        cases records with
        | nil =>
          simp only [List.map_nil, reduceCtorEq, false_and, iff_false]
          split <;> simp
        | cons r records =>
          -- The first record stands for itself; the others must also differ from it.
          have hrest := ih (start + recordSize) (l :: seen) records
          simp only [List.map_cons, List.cons.injEq, Option.some.injEq, List.nodup_cons,
            List.mem_map, List.mem_cons, forall_eq_or_imp, not_exists, not_and, not_or] at hrest ⊢
          constructor
          · intro hok
            cases hd : decodeRecords mega data n (start + recordSize) (l :: seen) with
            | error e =>
              rw [hd] at hok
              cases hok
            | ok found =>
              rw [hd] at hok
              obtain ⟨rfl, rfl⟩ := List.cons.inj (Except.ok.inj hok)
              obtain ⟨hmap, hnodup, hnew⟩ := hrest.mp hd
              exact ⟨⟨rfl, hmap⟩, ⟨fun r hr => (hnew r hr).1, hnodup⟩, hl, fun r hr => (hnew r hr).2⟩
          · rintro ⟨⟨rfl, hmap⟩, ⟨hne, hnodup⟩, -, hnew⟩
            rw [hrest.mpr ⟨hmap, hnodup, fun r hr => ⟨hne r hr, hnew r hr⟩⟩]

/-! ## Megachunks -/

theorem recordSize_pos : 0 < recordSize := by decide

/-- What parsing gives. -/
theorem parse_eq_ok_iff (data : ByteArray) (c : Coord) (records : List Record) :
    parse data = .ok (c, records)
      ↔ c = decodeHeader data
        ∧ ∃ n, data.size = headerSize + n * recordSize
          ∧ (List.range n).map (fun i => recordAt? data (headerSize + i * recordSize))
              = records.map some
          ∧ (records.map (·.place)).Nodup := by
  rw [parse]
  constructor
  · intro h
    split at h
    · cases h
    · rename_i hsize
      dsimp only at h
      split at h
      · cases h
      · rename_i hmod
        cases hd : decodeRecords (decodeHeader data) data ((data.size - headerSize) / recordSize)
            headerSize [] with
        | error e =>
          simp only [hd] at h
          cases h
        | ok found =>
          simp only [hd, Except.ok.injEq, Prod.mk.injEq] at h
          obtain ⟨rfl, rfl⟩ := h
          obtain ⟨hmap, hnodup, -⟩ := (decodeRecords_eq_ok_iff ..).mp hd
          refine ⟨rfl, (data.size - headerSize) / recordSize, ?_, hmap, hnodup⟩
          have hdiv := Nat.div_mul_cancel (Nat.dvd_of_mod_eq_zero (Decidable.not_not.mp hmod))
          omega
  · rintro ⟨rfl, n, hsize, hmap, hnodup⟩
    have hd := (decodeRecords_eq_ok_iff (decodeHeader data) data n headerSize [] records).mpr
      ⟨hmap, hnodup, fun _ _ => List.not_mem_nil⟩
    rw [if_neg (by omega)]
    simp only [hsize, Nat.add_sub_cancel_left, Nat.mul_mod_left, ne_eq, not_true_eq_false,
      if_false, Nat.mul_div_cancel _ recordSize_pos, hd]

/-- The place of the record with number `i`. -/
theorem recordAt?_eq_some {data : ByteArray} {i : Nat} {r : Record}
    (h : recordAt? data (headerSize + i * recordSize) = some r) :
    placeOfBytes? (placeBytes data i).1 (placeBytes data i).2.1 (placeBytes data i).2.2
      = some r.place := by
  rw [recordAt?, Option.map_eq_some_iff] at h
  obtain ⟨l, hl, rfl⟩ := h
  exact hl

/-- The record with number `i` is the one at this index of the list. -/
theorem recordAt?_getElem {data : ByteArray} {n : Nat} {records : List Record}
    (h : (List.range n).map (fun i => recordAt? data (headerSize + i * recordSize))
      = records.map some) {i : Nat} (hi : i < records.length) :
    recordAt? data (headerSize + i * recordSize) = some records[i] := by
  have hlength := congrArg List.length h
  rw [List.length_map, List.length_map, List.length_range] at hlength
  have hat := congrArg (·[i]?) h
  simpa [hlength ▸ hi, hi] using hat

/-- Parsing accepts exactly the well-formed data. -/
theorem parse_ok_iff (data : ByteArray) :
    (∃ c records, parse data = .ok (c, records)) ↔ WellFormed data := by
  constructor
  · rintro ⟨c, records, h⟩
    obtain ⟨-, n, hsize, hmap, hnodup⟩ := (parse_eq_ok_iff data c records).mp h
    have hlen : records.length = n := by
      have hlength := congrArg List.length hmap
      rw [List.length_map, List.length_map, List.length_range] at hlength
      exact hlength.symm
    refine ⟨n, hsize, fun i hi => ?_, fun i hi j hj hij => ?_⟩
    · have hplace := recordAt?_eq_some (recordAt?_getElem hmap (hlen ▸ hi))
      exact placeOfBytes?_isSome.mp (by rw [hplace]; rfl)
    · have hplace := recordAt?_eq_some (recordAt?_getElem hmap (hlen ▸ hi))
      rw [hij, recordAt?_eq_some (recordAt?_getElem hmap (hlen ▸ hj))] at hplace
      have hi' : i < (records.map (·.place)).length := by rw [List.length_map, hlen]; exact hi
      have hj' : j < (records.map (·.place)).length := by rw [List.length_map, hlen]; exact hj
      refine (@List.Nodup.getElem_inj_iff _ _ hnodup i hi' j hj').mp ?_
      rw [List.getElem_map, List.getElem_map]
      exact (Option.some.inj hplace).symm
  · rintro ⟨n, hsize, hinside, hdistinct⟩
    have hsome : ∀ i < n, (recordAt? data (headerSize + i * recordSize)).isSome = true := by
      intro i hi
      rw [recordAt?, Option.isSome_map]
      exact placeOfBytes?_isSome.mpr (hinside i hi)
    let records := (List.range n).filterMap fun i => recordAt? data (headerSize + i * recordSize)
    refine ⟨decodeHeader data, records, (parse_eq_ok_iff ..).mpr ⟨rfl, n, hsize, ?_, ?_⟩⟩
    · rw [List.map_filterMap, ← List.filterMap_eq_map]
      refine List.filterMap_congr fun i hi => ?_
      obtain ⟨r, hr⟩ := Option.isSome_iff_exists.mp (hsome i (List.mem_range.mp hi))
      rw [Function.comp_apply, hr, Option.map_some]
    · rw [List.Nodup, List.pairwise_map, List.pairwise_filterMap]
      refine (List.pairwise_lt_range (n := n)).imp_of_mem ?_
      intro i j hi hj hlt r hr r' hr' hplace
      have hi' := recordAt?_eq_some hr
      rw [hplace] at hi'
      have hbytes := placeOfBytes?_inj hi' (recordAt?_eq_some hr')
      have hij := hdistinct i (List.mem_range.mp hi) j (List.mem_range.mp hj) hbytes
      omega

example : headerSize = 10 ∧ recordSize = 12292 := by decide

/-- There are as many records as there is room for behind the header. -/
theorem length_of_parse {data : ByteArray} {c : Coord} {records : List Record}
    (h : parse data = .ok (c, records)) :
    records.length = (data.size - headerSize) / recordSize := by
  obtain ⟨-, n, hsize, hmap, -⟩ := (parse_eq_ok_iff ..).mp h
  have hlength := congrArg List.length hmap
  rw [List.length_map, List.length_map, List.length_range] at hlength
  rw [hsize, Nat.add_sub_cancel_left, Nat.mul_div_cancel _ recordSize_pos, hlength]

theorem parse_nodup {data : ByteArray} {c : Coord} {records : List Record}
    (h : parse data = .ok (c, records)) : (records.map (·.place)).Nodup := by
  obtain ⟨-, _, -, -, hnodup⟩ := (parse_eq_ok_iff data c records).mp h
  exact hnodup

theorem parse_coord {data : ByteArray} {c : Coord} {records : List Record}
    (h : parse data = .ok (c, records)) : c = decodeHeader data :=
  ((parse_eq_ok_iff data c records).mp h).1

end BlockWorld.Megachunk
