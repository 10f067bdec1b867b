import BlockWorld.Chunk.Codec
import BlockWorld.Proofs.Chunk
/-!
Chunks as bytes and back. Byte arrays are compared by the lists of their bytes: writing appends to
the list, and reading at a position takes the bytes behind a known beginning apart. A chunk that is
written and read again has its damages rounded down to steps of 1/256 (`Chunk.quantized`), and
writing it once more gives the same bytes. Bytes that nobody has written as a chunk are also written
again as they were read (`Chunk.bytes_decodeFrom`).

How the proof goes. A cell is three bytes, the type in two of them and the damage in one. Types come back from
their bytes (`blockOfBytes_highByte_lowByte`). For damages it is the bytes that come back
(`quantizeDamage_damageOfByte`), which is tried for all 256 of them. The bytes of a chunk are those of its
cells, one after the other (`toList_appendTo`), so the cell with number `i` stands behind `3 * i` bytes
(`cellAt_of_toList`), and reading all cells gives the chunk with its damages rounded (`decodeFrom_of_toList`).
In the other direction any bytes of the right number are three by three the records of the cells read from
them (`flatMap_range_three`, `Cell.record_ofBytes`).
-/
namespace BlockWorld

open Grid Block

/-! ## Lists of bytes -/

theorem toList_push (b : ByteArray) (x : UInt8) :
    (b.push x).data.toList = b.data.toList ++ [x] := by
  rw [ByteArray.data_push, Array.toList_push]

theorem length_toList_data (b : ByteArray) : b.data.toList.length = b.size := by
  rw [Array.length_toList]
  rfl

theorem getElem?_eq_toList_data (b : ByteArray) (i : Nat) : b[i]? = b.data.toList[i]? := by
  rw [Array.getElem?_toList]
  rfl

/-- Two byte arrays with the same bytes are the same. -/
theorem eq_of_toList_data {a b : ByteArray} (h : a.data.toList = b.data.toList) : a = b :=
  ByteArray.ext (Array.toList_inj.mp h)

theorem toList_foldl_push (l : List UInt8) (b : ByteArray) :
    (l.foldl ByteArray.push b).data.toList = b.data.toList ++ l := by
  induction l generalizing b with
  | nil => rw [List.foldl_nil, List.append_nil]
  | cons x l ih => rw [List.foldl_cons, ih, toList_push, List.append_assoc, List.singleton_append]

/-- Writing one thing after the other appends the bytes of each. -/
theorem toList_foldl_append {α : Type} {put : ByteArray → α → ByteArray} {bytes : α → List UInt8}
    (hput : ∀ out a, (put out a).data.toList = out.data.toList ++ bytes a) (l : List α)
    (out : ByteArray) :
    (l.foldl put out).data.toList = out.data.toList ++ l.flatMap bytes := by
  induction l generalizing out with
  | nil => rw [List.foldl_nil, List.flatMap_nil, List.append_nil]
  | cons a l ih => rw [List.foldl_cons, ih, hput, List.flatMap_cons, List.append_assoc]

theorem length_flatMap_of_length {α : Type} {bytes : α → List UInt8} {k : Nat}
    (hk : ∀ a, (bytes a).length = k) (l : List α) : (l.flatMap bytes).length = l.length * k := by
  induction l with
  | nil => rw [List.flatMap_nil, List.length_nil, List.length_nil, Nat.zero_mul]
  | cons a l ih =>
    rw [List.flatMap_cons, List.length_append, hk, ih, List.length_cons, Nat.succ_mul, Nat.add_comm]

/-- What stands before and behind the bytes of one of several things. -/
theorem flatMap_eq_append {α : Type} (bytes : α → List UInt8) {l : List α} {i : Nat}
    (hi : i < l.length) :
    l.flatMap bytes = (l.take i).flatMap bytes ++ bytes l[i] ++ (l.drop (i + 1)).flatMap bytes := by
  conv => lhs; rw [← List.take_append_drop i l, List.drop_eq_getElem_cons hi]
  rw [List.flatMap_append, List.flatMap_cons, List.append_assoc]

namespace Chunk

/-- The byte at a position of some bytes that stand behind a known beginning. -/
theorem byteAt_of_toList {data : ByteArray} {before bytes after : List UInt8}
    (h : data.data.toList = before ++ bytes ++ after) {k : Nat} (hk : k < bytes.length) :
    byteAt data (before.length + k) = bytes[k] := by
  rw [byteAt, getElem?_eq_toList_data, h, List.append_assoc, List.getElem?_append_right (Nat.le_add_right ..),
    Nat.add_sub_cancel_left, List.getElem?_append_left hk, List.getElem?_eq_getElem hk,
    Option.getD_some]

/-- The bytes from one position to another. -/
theorem take_drop_toList {data : ByteArray} {start k : Nat} (h : start + k ≤ data.size) :
    (data.data.toList.drop start).take k = (List.range k).map fun i => byteAt data (start + i) := by
  have hlength : data.data.toList.length = data.size := length_toList_data data
  apply List.ext_getElem
  · simp only [List.length_take, List.length_drop, List.length_map, List.length_range, hlength]
    omega
  · intro i hi hi'
    rw [List.length_map, List.length_range] at hi'
    rw [List.getElem_map, List.getElem_range, List.getElem_take, List.getElem_drop, byteAt,
      getElem?_eq_toList_data, List.getElem?_eq_getElem (by omega), Option.getD_some]

end Chunk

/-! ## Cells -/

/-- A block type is put together from its two bytes. -/
theorem blockOfBytes_highByte_lowByte (id : BlockId) :
    blockOfBytes (highByte id) (lowByte id) = id := by
  apply UInt16.eq_of_toBitVec_eq
  simp only [blockOfBytes, highByte, lowByte, UInt16.toBitVec_or, UInt16.toBitVec_shiftLeft,
    UInt8.toBitVec_toUInt16, UInt16.toBitVec_toUInt8, UInt16.toBitVec_shiftRight]
  ext i hi
  simp
  grind

theorem highByte_blockOfBytes (high low : UInt8) : highByte (blockOfBytes high low) = high := by
  apply UInt8.eq_of_toBitVec_eq
  simp only [blockOfBytes, highByte, UInt16.toBitVec_or, UInt16.toBitVec_shiftLeft,
    UInt8.toBitVec_toUInt16, UInt16.toBitVec_toUInt8, UInt16.toBitVec_shiftRight]
  ext i hi
  simp
  grind

theorem lowByte_blockOfBytes (high low : UInt8) : lowByte (blockOfBytes high low) = low := by
  apply UInt8.eq_of_toBitVec_eq
  simp only [blockOfBytes, lowByte, UInt16.toBitVec_or, UInt16.toBitVec_shiftLeft,
    UInt8.toBitVec_toUInt16, UInt16.toBitVec_toUInt8]
  ext i hi
  simp

theorem quantizeDamage_damageOfByte_ofNat :
    ∀ b : Fin 256, quantizeDamage (damageOfByte (UInt8.ofNat b.val)) = UInt8.ofNat b.val := by
  decide +kernel

/-- A damage that came from a byte is written as this byte. -/
theorem quantizeDamage_damageOfByte (b : UInt8) : quantizeDamage (damageOfByte b) = b := by
  have hb := quantizeDamage_damageOfByte_ofNat ⟨b.toNat, b.toNat_lt⟩
  rwa [UInt8.ofNat_toNat] at hb

/-- What is left of a cell that is written and read again. -/
def Cell.quantized (b : Cell) : Cell := ⟨b.kind, damageOfByte (quantizeDamage b.damage), .unknown⟩

theorem Cell.record_quantized (b : Cell) : b.quantized.record = b.record := by
  rw [record, record, quantized, quantizeDamage_damageOfByte]

/-- A cell that has been read is written as the same three bytes. -/
theorem Cell.record_ofBytes (high low damage : UInt8) :
    (Cell.ofBytes high low damage).record = [high, low, damage] := by
  rw [record, ofBytes, highByte_blockOfBytes, lowByte_blockOfBytes, quantizeDamage_damageOfByte]

theorem Cell.length_record (b : Cell) : b.record.length = Cell.recordSize := rfl

/-! ## Chunks -/

namespace Chunk

/-- The bytes of a chunk, as a list. -/
def bytes (c : Chunk) : List UInt8 := c.cells.toList.flatMap Cell.record

/-- What is left of a chunk that is written and read again. -/
def quantized (c : Chunk) : Chunk := ⟨c.cells.map Cell.quantized, false⟩

theorem cell_quantized (c : Chunk) (l : Local) : c.quantized.cell l = (c.cell l).quantized := by
  rw [cell_eq_getElem, cell_eq_getElem, quantized, Vector.getElem_map]

theorem cell_decodeFrom (data : ByteArray) (start : Nat) (l : Local) :
    (decodeFrom data start).cell l = cellAt data start l.index.val := by
  rw [cell_eq_getElem, decodeFrom, Vector.getElem_ofFn]

theorem length_bytes (c : Chunk) : c.bytes.length = encodedSize := by
  rw [bytes, length_flatMap_of_length Cell.length_record, Vector.length_toList]
  rfl

theorem toList_appendCell (out : ByteArray) (b : Cell) :
    (appendCell out b).data.toList = out.data.toList ++ b.record := by
  rw [appendCell, toList_push, toList_push, toList_push, List.append_assoc, List.append_assoc]
  rfl

theorem toList_appendTo (c : Chunk) (out : ByteArray) :
    (c.appendTo out).data.toList = out.data.toList ++ c.bytes := by
  rw [appendTo, ← Vector.foldl_toList]
  exact toList_foldl_append toList_appendCell c.cells.toList out

/-- A chunk that has been read from bytes is written as these bytes. -/
theorem bytes_quantized (c : Chunk) : c.quantized.bytes = c.bytes := by
  rw [bytes, quantized, Vector.toList_map, List.flatMap_map]
  exact congrArg (c.cells.toList.flatMap ·) (funext Cell.record_quantized)

/-- The cell with number `i` is read from its three bytes. -/
theorem cellAt_of_toList {data : ByteArray} {before after : List UInt8} {c : Chunk}
    (h : data.data.toList = before ++ c.bytes ++ after) {i : Nat} (hi : i < volume) :
    cellAt data before.length i = c.cells[i].quantized := by
  have hlen : i < c.cells.toList.length := by rwa [Vector.length_toList]
  -- The cells before this one take three bytes each.
  have hsplit : data.data.toList
      = (before ++ (c.cells.toList.take i).flatMap Cell.record) ++ c.cells[i].record
        ++ ((c.cells.toList.drop (i + 1)).flatMap Cell.record ++ after) := by
    rw [h, bytes, flatMap_eq_append Cell.record hlen, Vector.getElem_toList]
    simp only [List.append_assoc]
  have hstart : (before ++ (c.cells.toList.take i).flatMap Cell.record).length
      = before.length + i * Cell.recordSize := by
    rw [List.length_append, length_flatMap_of_length Cell.length_record,
      List.length_take_of_le (Nat.le_of_lt hlen)]
  have hbyte : ∀ k (hk : k < Cell.recordSize),
      byteAt data (before.length + i * Cell.recordSize + k) = c.cells[i].record[k] := by
    intro k hk
    rw [← hstart]
    exact byteAt_of_toList hsplit hk
  have h0 := hbyte 0 (by decide)
  have h1 := hbyte 1 (by decide)
  have h2 := hbyte 2 (by decide)
  rw [Nat.add_zero] at h0
  simp only [cellAt, h0, h1, h2, Cell.ofBytes, Cell.record, Cell.quantized,
    List.getElem_cons_zero, List.getElem_cons_succ, blockOfBytes_highByte_lowByte]

/-- Reading a chunk from where its bytes start. -/
theorem decodeFrom_of_toList {data : ByteArray} {before after : List UInt8} {c : Chunk}
    (h : data.data.toList = before ++ c.bytes ++ after) :
    decodeFrom data before.length = c.quantized := by
  have hcells : (Vector.ofFn fun i => cellAt data before.length i.val)
      = c.cells.map Cell.quantized := by
    refine Vector.ext fun i hi => ?_
    rw [Vector.getElem_ofFn, Vector.getElem_map]
    exact cellAt_of_toList h hi
  rw [decodeFrom, quantized, hcells]

/-- Values taken three by three are all of them, one after the other. -/
theorem flatMap_range_three {α : Type} (f : Nat → α) (n : Nat) :
    (List.range n).flatMap (fun i => [f (i * 3), f (i * 3 + 1), f (i * 3 + 2)])
      = (List.range (n * 3)).map f := by
  induction n with
  | zero => rfl
  | succ n ih =>
    rw [List.range_succ, List.flatMap_append, ih, Nat.succ_mul, List.range_add, List.map_append]
    rfl

/-- A chunk that has been read is written as the bytes that it was read from, whatever they were. -/
theorem bytes_decodeFrom (data : ByteArray) (start : Nat) :
    (decodeFrom data start).bytes = (List.range encodedSize).map fun i => byteAt data (start + i) := by
  have hcells : (decodeFrom data start).cells.toList
      = (List.range volume).map fun i => cellAt data start i := by
    apply List.ext_getElem
    · simp [decodeFrom]
    · intro i hi hi'
      simp [decodeFrom]
  rw [bytes, hcells, List.flatMap_map]
  simp only [cellAt, Cell.record_ofBytes]
  exact flatMap_range_three (fun i => byteAt data (start + i)) volume

end Chunk

end BlockWorld
