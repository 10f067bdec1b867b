import BlockWorld.Proofs.ChunkCodec
import BlockWorld.Proofs.Faces
/-!
Reading bytes into a chunk that may hold anything. Cells are replaced one by one, and after the last
of them nothing of the old ones is left (`overwrite_eq_decodeFrom`), so reading into a chunk gives
what reading on its own does (`load_eq_decode`). Bytes and chunks then stand for each other
(`load_encode_inverse`): bytes of the right number come back as they were, and a chunk comes back
with its damages rounded down.

How the proof goes. Reading into a chunk is a fold over the numbers of its places that replaces one cell at a
time. A place that is not among the numbers is left (`cell_foldl_setCell_of_notMem`), and one that is has the
new cell whatever stood there (`cell_foldl_setCell_of_mem`); since all numbers are gone through, only the
second case occurs. The number of blocks is a fold as well, and it counts the cells that are not air
(`foldl_isAir`, `countSolid_eq_countP`). Rounding a damage does not change a type, so the count does not
change on the way through bytes (`countSolid_quantized`).
-/
namespace BlockWorld

open Grid Block

namespace Chunk

/-! ## Replacing all cells -/

/-- Two chunks with the same cells and the same mark are the same. -/
theorem eq_of_cell {c c' : Chunk} (hcell : ∀ l, c.cell l = c'.cell l)
    (hcached : c.cached = c'.cached) : c = c' := by
  have hcells : c.cells = c'.cells := by
    refine Vector.ext fun i hi => ?_
    have h := hcell (.ofIndex ⟨i, hi⟩)
    simpa only [cell_eq_getElem, Local.index_ofIndex] using h
  cases c
  cases c'
  rw [mk.injEq]
  exact ⟨hcells, hcached⟩

section

variable (b : Fin volume → Cell) {is : List (Fin volume)} {l : Local}

/-- Replacing several cells is seen nowhere else. -/
theorem cell_foldl_setCell_of_notMem (hl : l.index ∉ is) (c : Chunk) :
    (is.foldl (fun c i => c.setCell (.ofIndex i) (b i)) c).cell l = c.cell l := by
  induction is generalizing c with
  | nil => rfl
  | cons i is ih =>
    have hrest : l.index ∉ is := fun hmem => hl (List.mem_cons_of_mem i hmem)
    have hne : l ≠ .ofIndex i := by
      rintro rfl
      simp at hl
    rw [List.foldl_cons, ih hrest, cell_setCell, if_neg hne]

/-- Each of several cells is replaced, whatever stood at its place. -/
theorem cell_foldl_setCell_of_mem (hl : l.index ∈ is) (c : Chunk) :
    (is.foldl (fun c i => c.setCell (.ofIndex i) (b i)) c).cell l = b l.index := by
  induction is generalizing c with
  | nil => simp at hl
  | cons i is ih =>
    rw [List.foldl_cons]
    by_cases hrest : l.index ∈ is
    · exact ih hrest _
    · -- The place is not come to again, so what is put there now stays.
      have hi : l.index = i := (List.mem_cons.mp hl).resolve_right hrest
      rw [cell_foldl_setCell_of_notMem b hrest, ← hi, Local.ofIndex_index, cell_setCell, if_pos rfl]

end

theorem cell_invalidate (c : Chunk) (l : Local) : c.invalidate.cell l = c.cell l := rfl

/-- All numbers of places are gone through, so nothing is left of what a chunk held before. -/
theorem overwrite_eq_decodeFrom (c : Chunk) (data : ByteArray) (start : Nat) :
    c.overwrite data start = decodeFrom data start := by
  refine eq_of_cell (fun l => ?_) rfl
  rw [overwrite, cell_invalidate, Fin.foldl_eq_finRange_foldl,
    cell_foldl_setCell_of_mem (fun i => cellAt data start i.val) (List.mem_finRange l.index),
    cell_decodeFrom]

/-- Reading into a chunk replaces it by the one that is read on its own, or keeps it. -/
theorem load_eq_decode (c : Chunk) (data : ByteArray) :
    c.load data = ((decode data).toOption.getD c, (decode data).map fun _ => ()) := by
  rw [load, decode, overwrite_eq_decodeFrom]
  split <;> rfl

theorem load_of_size {data : ByteArray} (hsize : data.size = encodedSize) (c : Chunk) :
    c.load data = (decodeFrom data 0, .ok ()) := by
  rw [load_eq_decode, decode, if_pos hsize]
  rfl

theorem load_of_size_ne {data : ByteArray} (hsize : data.size ≠ encodedSize) (c : Chunk) :
    c.load data = (c, .error ⟨data.size⟩) := by
  rw [load_eq_decode, decode, if_neg hsize]
  rfl

/-! ## The bytes of a whole chunk -/

theorem toList_encode (c : Chunk) : c.encode.data.toList = c.bytes := by
  rw [encode, toList_appendTo]
  exact List.nil_append c.bytes

theorem size_encode (c : Chunk) : c.encode.size = encodedSize := by
  rw [← length_toList_data, toList_encode, length_bytes]

theorem decodeFrom_encode (c : Chunk) : decodeFrom c.encode 0 = c.quantized := by
  have h : c.encode.data.toList = [] ++ c.bytes ++ [] := by
    rw [toList_encode, List.nil_append, List.append_nil]
  have hread := decodeFrom_of_toList h
  rwa [List.length_nil] at hread

theorem encode_decodeFrom {data : ByteArray} (hsize : data.size = encodedSize) :
    (decodeFrom data 0).encode = data := by
  apply eq_of_toList_data
  have hall : data.data.toList.take encodedSize = data.data.toList :=
    List.take_of_length_le (Nat.le_of_eq ((length_toList_data data).trans hsize))
  rw [toList_encode, bytes_decodeFrom, ← take_drop_toList (by omega), List.drop_zero, hall]

/-- The three bytes of a cell stand behind those of all cells with a lower number. -/
theorem take_drop_bytes (c : Chunk) {i : Nat} (hi : i < volume) :
    (c.bytes.drop (i * Cell.recordSize)).take Cell.recordSize = c.cells[i].record := by
  have hlen : i < c.cells.toList.length := by rwa [Vector.length_toList]
  have hbefore : ((c.cells.toList.take i).flatMap Cell.record).length = i * Cell.recordSize := by
    rw [length_flatMap_of_length Cell.length_record, List.length_take_of_le (Nat.le_of_lt hlen)]
  rw [bytes, flatMap_eq_append Cell.record hlen, List.append_assoc, List.drop_left' hbefore,
    List.take_left' (Cell.length_record _), Vector.getElem_toList]

end Chunk

/-- The bytes of a cell in numbers: the type in base 256 with the high digit first, then the damage. -/
theorem Cell.record_eq_digits (b : Cell) :
    b.record = [UInt8.ofNat (b.kind.toNat / 256), UInt8.ofNat (b.kind.toNat % 256),
      quantizeDamage b.damage] := by
  have hhigh : highByte b.kind = UInt8.ofNat (b.kind.toNat / 256) := by
    apply UInt8.toNat_inj.mp
    simp [highByte, Nat.shiftRight_eq_div_pow]
  have hlow : lowByte b.kind = UInt8.ofNat (b.kind.toNat % 256) := by
    apply UInt8.toNat_inj.mp
    simp [lowByte]
  rw [record, hhigh, hlow]

namespace Chunk

/-! ## Counting blocks -/

/-- Going through the cells adds the number of those that are not air. -/
theorem foldl_isAir (cells : List Cell) (n : Nat) :
    cells.foldl (fun n b => if b.isAir then n else n + 1) n
      = n + cells.countP fun b => !b.isAir := by
  induction cells generalizing n with
  | nil => rfl
  | cons b cells ih =>
    rw [List.foldl_cons, ih, List.countP_cons]
    cases b.isAir with
    | true => simp
    | false =>
      rw [if_neg Bool.false_ne_true, Bool.not_false, if_pos rfl]
      omega

/-- The count is the number of cells that are not air. -/
theorem countSolid_eq_countP (c : Chunk) :
    c.countSolid = c.cells.toList.countP fun b => !b.isAir := by
  rw [countSolid, ← Vector.foldl_toList, foldl_isAir, Nat.zero_add]

/-- Rounding damages turns no block into air and no air into a block. -/
theorem countSolid_quantized (c : Chunk) : c.quantized.countSolid = c.countSolid := by
  rw [countSolid_eq_countP, countSolid_eq_countP, quantized, Vector.toList_map, List.countP_map]
  rfl

/-! ## Both ways -/

/-- Whatever a chunk holds, all bytes of the right number can be read into it and are written again
as they were. A chunk is written as three bytes for each place, the places being numbered with `x`
running fastest, and once its bytes are read into any chunk, that one has its types, its damages in
steps of 1/256 and its number of blocks, but neither faces nor a picture. Bytes of any other number
are refused as corrupt and change nothing. -/
theorem load_encode_inverse (prior : Chunk) :
    (∀ data : ByteArray, data.size = 12288 →
        ∃ c, prior.load data = (c, .ok ()) ∧ c.encode = data)
      ∧ (∀ c : Chunk, c.encode.size = 12288
          ∧ (∀ x y z : Fin 16,
              (c.encode.data.toList.drop (3 * (z.val * 256 + y.val * 16 + x.val))).take 3
                = [UInt8.ofNat ((c.cell ⟨x, y, z⟩).kind.toNat / 256),
                  UInt8.ofNat ((c.cell ⟨x, y, z⟩).kind.toNat % 256),
                  quantizeDamage (c.cell ⟨x, y, z⟩).damage])
          ∧ ∃ c', prior.load c.encode = (c', .ok ())
              ∧ (∀ l, (c'.cell l).kind = (c.cell l).kind
                  ∧ (c'.cell l).damage = (quantizeDamage (c.cell l).damage).toFloat32 / 256
                  ∧ (c'.cell l).faces.isValid = false)
              ∧ c'.countSolid = c.countSolid
              ∧ c'.cached = false)
      ∧ ∀ data : ByteArray, data.size ≠ 12288 →
          ∃ e, prior.load data = (prior, .error e) ∧ Fault.reasons e = [.corrupt] := by
  refine ⟨fun data hsize => ?_, fun c => ⟨c.size_encode, fun x y z => ?_, ?_⟩, fun data hsize => ?_⟩
  · exact ⟨decodeFrom data 0, load_of_size hsize prior, encode_decodeFrom hsize⟩
  · have hrecord := c.take_drop_bytes (Local.index_lt ⟨x, y, z⟩)
    rw [toList_encode, Nat.mul_comm, ← Cell.record_eq_digits]
    exact hrecord
  · refine ⟨c.quantized, ?_, fun l => ?_, c.countSolid_quantized, rfl⟩
    · rw [load_of_size c.size_encode, decodeFrom_encode]
    · rw [cell_quantized]
      exact ⟨rfl, rfl, FaceMask.isValid_unknown⟩
  · exact ⟨⟨data.size⟩, load_of_size_ne hsize prior, rfl⟩

/-- A drawn chunk with one block takes bytes that fill it up, and one byte less is refused. -/
theorem load_encode_inverse_filled :
    (ByteArray.mk (Array.replicate 12288 255)).size = 12288
      ∧ (∃ c, ((empty.setBlock (Coord.place ⟨2, 2, 2⟩) 1).markCached).load
            ⟨Array.replicate 12288 255⟩ = (c, .ok ())
          ∧ c.encode = ⟨Array.replicate 12288 255⟩)
      ∧ (ByteArray.mk (Array.replicate 12287 255)).size ≠ 12288
      ∧ ∃ e, ((empty.setBlock (Coord.place ⟨2, 2, 2⟩) 1).markCached).load
            ⟨Array.replicate 12287 255⟩
            = ((empty.setBlock (Coord.place ⟨2, 2, 2⟩) 1).markCached, .error e)
          ∧ Fault.reasons e = [.corrupt] := by
  have hall : (ByteArray.mk (Array.replicate 12288 255)).size = 12288 := Array.size_replicate
  have hshort : (ByteArray.mk (Array.replicate 12287 255)).size = 12287 := Array.size_replicate
  have hne : (ByteArray.mk (Array.replicate 12287 255)).size ≠ 12288 := by
    rw [hshort]
    decide
  have h := load_encode_inverse (empty.setBlock (Coord.place ⟨2, 2, 2⟩) 1).markCached
  exact ⟨hall, h.1 _ hall, hne, h.2.2 _ hne⟩

end Chunk

end BlockWorld
