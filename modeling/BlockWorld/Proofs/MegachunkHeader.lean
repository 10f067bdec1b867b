import BlockWorld.Megachunk.Codec
import BlockWorld.Proofs.ChunkCodec
import BlockWorld.Proofs.Grid
/-!
Headers of megachunks. A coordinate fits a header if and only if its components have at most three
bytes (`encodeHeader_ok_iff`), and then it is read back from the ten bytes (`decodeHeader_encode`).
Both need that a component can be negated, which the least 64-bit integer cannot: its magnitude is
negative and passes as small. It is written as a minus sign with a magnitude of zero and so read back
as zero (`decodeHeader_header`). The other way round, a coordinate that has been read is written as the
same magnitudes, with a sign only where the magnitude is not zero (`encodeHeader_decodeHeader`).

How the proof goes. One axis first. A component passes if its magnitude, negated where it is negative, is at
most the largest number of three bytes, and that is a statement on integers (`magnitude_le_iff`) in which the
least one is a case of its own. Its three bytes are the digits of the magnitude to the base 256
(`magnitudeBytes_eq_iff`), and a sign and three bytes give back the number (`decodeComponent_magnitudeBytes`).
Then the three axes: the signs share one byte, with a bit for each (`bits_signs`), and the ten bytes are read
as three components (`decodeHeader_header`). For the converse the bits that mean something are picked out by a
mask (`signMask`), since a reader ignores five bits and the sign of a zero.
-/
namespace BlockWorld

open Grid

namespace Grid.Coord

/-- The magnitudes of the components have at most three bytes. -/
def InRange (c : Coord) : Prop :=
  c.x.toInt.natAbs ≤ 0xFFFFFF ∧ c.y.toInt.natAbs ≤ 0xFFFFFF ∧ c.z.toInt.natAbs ≤ 0xFFFFFF

instance (c : Coord) : Decidable c.InRange := inferInstanceAs (Decidable (_ ∧ _ ∧ _))

theorem InRange.negatable {c : Coord} (hc : c.InRange) : c.Negatable := by
  have hmin : ¬Int64.minValue.toInt.natAbs ≤ 0xFFFFFF := by decide
  refine ⟨fun h => hmin ?_, fun h => hmin ?_, fun h => hmin ?_⟩ <;> rw [← h]
  · exact hc.1
  · exact hc.2.1
  · exact hc.2.2

end Grid.Coord

namespace Megachunk

/-! ## Components -/

section Component

variable {v : Int64}

theorem toInt_magnitude (hv : v ≠ Int64.minValue) : (magnitude v).toInt = v.toInt.natAbs := by
  have hlt : v.toInt < 9223372036854775808 := v.toInt_lt
  have hge : -9223372036854775808 ≤ v.toInt := v.le_toInt
  have hne : v.toInt ≠ -9223372036854775808 :=
    fun h => hv (Int64.toInt_inj.mp (h.trans Int64.toInt_minValue.symm))
  rw [magnitude]
  by_cases hneg : v < 0
  · have hneg' : v.toInt < 0 := Int64.lt_iff_toInt_lt.mp hneg
    rw [if_pos hneg, Int64.toInt_neg, Int.bmod_eq_of_le (by omega) (by omega)]
    omega
  · have hpos : ¬v.toInt < 0 := fun h => hneg (Int64.lt_iff_toInt_lt.mpr h)
    rw [if_neg hneg]
    omega

/-- The magnitude of a component passes as small enough for three bytes. -/
def Passes (v : Int64) : Prop := v = Int64.minValue ∨ v.toInt.natAbs ≤ 0xFFFFFF

/-- A component after it has been written and read: the least integer has become zero. -/
def reread (v : Int64) : Int64 := if v = Int64.minValue then 0 else v

theorem magnitude_le_iff : magnitude v ≤ maxMagnitude ↔ Passes v := by
  have hmax : maxMagnitude.toInt = 0xFFFFFF := by decide
  by_cases hv : v = Int64.minValue
  · subst hv
    exact ⟨fun _ => .inl rfl, fun _ => by decide⟩
  · rw [Int64.le_iff_toInt_le, toInt_magnitude hv, hmax, Passes, or_iff_right hv]
    omega

theorem reread_eq_self_iff : reread v = v ↔ v ≠ Int64.minValue := by
  rw [reread]
  split
  · rename_i hv
    subst hv
    decide
  · rename_i hv
    exact ⟨fun _ => hv, fun _ => rfl⟩

/-- The low byte of a number that is not negative, after a shift. -/
theorem toNat_shiftRight_toUInt8 (hv : 0 ≤ v.toInt) (k : Int64) {n : Nat}
    (hn : (k.toBitVec.smod 64).toNat = n) :
    (v >>> k).toUInt64.toUInt8.toNat = v.toInt.toNat >>> n % 256 := by
  have hmsb : v.toBitVec.msb = false := by
    rw [BitVec.msb_eq_toInt]
    simpa using hv
  have hnat : v.toBitVec.toNat = v.toInt.toNat := by
    have hcast := BitVec.toInt_eq_toNat_of_msb hmsb
    change v.toInt = _ at hcast
    omega
  have hword : (v >>> k).toUInt64.toNat = (v >>> k).toBitVec.toNat := rfl
  rw [UInt64.toNat_toUInt8, hword, Int64.toBitVec_shiftRight, BitVec.sshiftRight',
    BitVec.sshiftRight_eq_of_msb_false hmsb, hn, BitVec.toNat_ushiftRight, hnat]

/-- The three bytes of a number that they have room for. -/
theorem magnitudeBytes_eq_iff (hv : 0 ≤ v.toInt) (hle : v.toInt ≤ 0xFFFFFF) {a b c : UInt8} :
    magnitudeBytes v = [a, b, c] ↔ v.toInt = a.toNat * 65536 + b.toNat * 256 + c.toNat := by
  have hzero : v >>> 0 = v := Int64.shiftRight_zero
  have hhigh := toNat_shiftRight_toUInt8 hv 16 (n := 16) (by decide)
  have hmid := toNat_shiftRight_toUInt8 hv 8 (n := 8) (by decide)
  have hlow := toNat_shiftRight_toUInt8 hv 0 (n := 0) (by decide)
  rw [hzero] at hlow
  simp only [magnitudeBytes, List.cons.injEq, and_true, ← UInt8.toNat_inj, hhigh, hmid, hlow,
    Nat.shiftRight_eq_div_pow]
  have ha := a.toNat_lt
  have hb := b.toNat_lt
  have hc := c.toNat_lt
  omega

/-- The number that a sign and three bytes stand for. -/
theorem toInt_decodeComponent (negative : Bool) (a b c : UInt8) :
    (decodeComponent negative a b c).toInt
      = if negative = true then -(a.toNat * 65536 + b.toNat * 256 + c.toNat : Int)
        else a.toNat * 65536 + b.toNat * 256 + c.toNat := by
  have ha := a.toNat_lt
  have hb := b.toNat_lt
  have hc := c.toNat_lt
  have hnat : (Int64.ofNat (a.toNat * 65536 + b.toNat * 256 + c.toNat)).toInt
      = a.toNat * 65536 + b.toNat * 256 + c.toNat := by
    rw [Int64.toInt_ofNat_of_lt (by omega)]
    simp
  rw [decodeComponent]
  cases negative with
  | true =>
    simp only [if_true]
    rw [Int64.toInt_neg, hnat, Int.bmod_eq_of_le (by omega) (by omega)]
  | false =>
    simp only [Bool.false_eq_true, if_false]
    exact hnat

/-- A component that has been read has at most three bytes. -/
theorem natAbs_decodeComponent (negative : Bool) (a b c : UInt8) :
    (decodeComponent negative a b c).toInt.natAbs ≤ 0xFFFFFF := by
  have ha := a.toNat_lt
  have hb := b.toNat_lt
  have hc := c.toNat_lt
  rw [toInt_decodeComponent]
  split <;> omega

theorem decodeComponent_ne_minValue (negative : Bool) (a b c : UInt8) :
    decodeComponent negative a b c ≠ Int64.minValue := by
  intro h
  have habs := natAbs_decodeComponent negative a b c
  rw [h] at habs
  exact absurd habs (by decide)

/-- A component is read from its sign and the bytes of its magnitude. -/
theorem decodeComponent_magnitudeBytes (hv : Passes v) {a b c : UInt8}
    (h : magnitudeBytes (magnitude v) = [a, b, c]) : decodeComponent (v < 0) a b c = reread v := by
  by_cases hmin : v = Int64.minValue
  · subst hmin
    have hzero : magnitudeBytes (magnitude Int64.minValue) = [0, 0, 0] := by decide
    simp only [hzero, List.cons.injEq, and_true] at h
    obtain ⟨rfl, rfl, rfl⟩ := h
    decide
  · have habs := hv.resolve_left hmin
    have hmag := toInt_magnitude hmin
    rw [magnitudeBytes_eq_iff (by omega) (by omega), hmag] at h
    rw [reread, if_neg hmin, ← Int64.toInt_inj, toInt_decodeComponent]
    simp only [decide_eq_true_eq, Int64.lt_iff_toInt_lt]
    change (if v.toInt < 0 then _ else _) = _
    split <;> omega

/-- A component that has been read is written as the same bytes. -/
theorem magnitudeBytes_decodeComponent (negative : Bool) (a b c : UInt8) :
    magnitudeBytes (magnitude (decodeComponent negative a b c)) = [a, b, c] := by
  have habs := natAbs_decodeComponent negative a b c
  have hmag := toInt_magnitude (decodeComponent_ne_minValue negative a b c)
  rw [magnitudeBytes_eq_iff (by omega) (by omega), hmag, toInt_decodeComponent]
  split <;> omega

/-- A component that has been read is negative if it has a sign and is not zero. -/
theorem decodeComponent_neg_iff (negative : Bool) (a b c : UInt8) :
    decodeComponent negative a b c < 0 ↔ negative = true ∧ ¬(a = 0 ∧ b = 0 ∧ c = 0) := by
  have hzero : (0 : UInt8).toNat = 0 := rfl
  rw [Int64.lt_iff_toInt_lt, toInt_decodeComponent]
  simp only [← UInt8.toNat_inj, hzero]
  change (if negative = true then _ else _) < (0 : Int) ↔ _
  cases negative with
  | true =>
    simp only [if_true, true_and]
    omega
  | false =>
    simp only [Bool.false_eq_true, if_false, false_and, iff_false]
    omega

end Component

/-! ## Headers -/

section Header

variable {c : Coord} {header : List UInt8}

/-- The byte of the signs. -/
def signs (c : Coord) : UInt8 :=
  (if c.x < 0 then 4 else 0) ||| (if c.y < 0 then 2 else 0) ||| (if c.z < 0 then 1 else 0)

/-- Each sign has a bit of its own. -/
theorem bits_signs (c : Coord) :
    (signs c &&& 4 != 0) = decide (c.x < 0) ∧ (signs c &&& 2 != 0) = decide (c.y < 0)
      ∧ (signs c &&& 1 != 0) = decide (c.z < 0) := by
  rw [signs]
  by_cases hx : c.x < 0 <;> by_cases hy : c.y < 0 <;> by_cases hz : c.z < 0 <;>
    simp only [hx, hy, hz, if_true, if_false, decide_true, decide_false] <;> decide

/-- The ten bytes of a header. -/
def headerBytes (c : Coord) : List UInt8 :=
  signs c :: (magnitudeBytes (magnitude c.x) ++ magnitudeBytes (magnitude c.y)
    ++ magnitudeBytes (magnitude c.z))

/-- All components of a coordinate pass. -/
def AllPass (c : Coord) : Prop := Passes c.x ∧ Passes c.y ∧ Passes c.z

theorem magnitudes_le_iff :
    (decide (magnitude c.x ≤ maxMagnitude) && decide (magnitude c.y ≤ maxMagnitude)
      && decide (magnitude c.z ≤ maxMagnitude)) = true ↔ AllPass c := by
  simp only [Bool.and_eq_true, decide_eq_true_eq, magnitude_le_iff, and_assoc, AllPass]

theorem encodeHeader_of_allPass (hc : AllPass c) : encodeHeader c = .ok (headerBytes c) :=
  if_pos (magnitudes_le_iff.mpr hc)

theorem encodeHeader_of_not_allPass (hc : ¬AllPass c) : encodeHeader c = .error ⟨c⟩ :=
  if_neg fun h => hc (magnitudes_le_iff.mp h)

theorem encodeHeader_eq_ok_iff :
    encodeHeader c = .ok header ↔ AllPass c ∧ header = headerBytes c := by
  by_cases hc : AllPass c
  · rw [encodeHeader_of_allPass hc, Except.ok.injEq]
    exact ⟨fun h => ⟨hc, h.symm⟩, fun h => h.2.symm⟩
  · rw [encodeHeader_of_not_allPass hc]
    simp only [reduceCtorEq, hc, false_and]

theorem allPass_iff_inRange (hc : c.Negatable) : AllPass c ↔ c.InRange := by
  rw [AllPass, Passes, Passes, Passes, or_iff_right hc.1, or_iff_right hc.2.1, or_iff_right hc.2.2,
    Coord.InRange]

theorem allPass_of_inRange (hc : c.InRange) : AllPass c :=
  (allPass_iff_inRange hc.negatable).mpr hc

/-- A coordinate fits a header if and only if its magnitudes have at most three bytes. -/
theorem encodeHeader_ok_iff (hc : c.Negatable) :
    (∃ header, encodeHeader c = .ok header) ↔ c.InRange := by
  rw [← allPass_iff_inRange hc]
  simp only [encodeHeader_eq_ok_iff, exists_and_left, exists_eq, and_true]

/-- A coordinate after it has been written and read. -/
def rereadCoord (c : Coord) : Coord := c.map reread

theorem rereadCoord_eq_self_iff : rereadCoord c = c ↔ c.Negatable := by
  obtain ⟨x, y, z⟩ := c
  simp only [rereadCoord, Coord.map, Coord.mk.injEq, reread_eq_self_iff, Coord.Negatable]

/-- The least integer leaves a trace in its header: the sign of a zero. -/
theorem headerBytes_rereadCoord_iff :
    headerBytes (rereadCoord c) = headerBytes c ↔ c.Negatable := by
  have hsign : ∀ v : Int64, decide (reread v < 0) = decide (v < 0) → v ≠ Int64.minValue := by
    rintro v hv rfl
    exact absurd hv (by decide)
  constructor
  · intro h
    have hsigns : signs (rereadCoord c) = signs c := (List.cons.inj h).1
    obtain ⟨hx, hy, hz⟩ := bits_signs (rereadCoord c)
    obtain ⟨hx', hy', hz'⟩ := bits_signs c
    rw [hsigns] at hx hy hz
    exact ⟨hsign _ (hx.symm.trans hx'), hsign _ (hy.symm.trans hy'), hsign _ (hz.symm.trans hz')⟩
  · intro hc
    rw [rereadCoord_eq_self_iff.mpr hc]

/-- The coordinate is read from the header. -/
theorem decodeHeader_header (hc : AllPass c) {data : ByteArray} {rest : List UInt8}
    (hdata : data.data.toList = headerBytes c ++ rest) : decodeHeader data = rereadCoord c := by
  have hbyte : ∀ k b, (headerBytes c)[k]? = some b → Chunk.byteAt data k = b := by
    intro k b hb
    obtain ⟨hk, rfl⟩ := List.getElem?_eq_some_iff.mp hb
    have hat := @Chunk.byteAt_of_toList data [] (headerBytes c) rest hdata k hk
    rwa [List.length_nil, Nat.zero_add] at hat
  obtain ⟨hx, hy, hz⟩ := hc
  obtain ⟨hsx, hsy, hsz⟩ := bits_signs c
  have hsigns : Chunk.byteAt data 0 = signs c := hbyte 0 _ rfl
  simp only [decodeHeader, hsigns, hsx, hsy, hsz, rereadCoord, Coord.map]
  congr 1
  · rw [hbyte 1 _ rfl, hbyte 2 _ rfl, hbyte 3 _ rfl]
    exact decodeComponent_magnitudeBytes hx rfl
  · rw [hbyte 4 _ rfl, hbyte 5 _ rfl, hbyte 6 _ rfl]
    exact decodeComponent_magnitudeBytes hy rfl
  · rw [hbyte 7 _ rfl, hbyte 8 _ rfl, hbyte 9 _ rfl]
    exact decodeComponent_magnitudeBytes hz rfl

/-- The coordinate is read back from the header. -/
theorem decodeHeader_encode (hc : c.Negatable) (h : encodeHeader c = .ok header)
    {data : ByteArray} {rest : List UInt8} (hdata : data.data.toList = header ++ rest) :
    decodeHeader data = c := by
  obtain ⟨hpass, rfl⟩ := encodeHeader_eq_ok_iff.mp h
  rw [decodeHeader_header hpass hdata, rereadCoord_eq_self_iff.mpr hc]

/-- What has been read from a header would fit a header. -/
theorem inRange_decodeHeader (data : ByteArray) : (decodeHeader data).InRange :=
  ⟨natAbs_decodeComponent .., natAbs_decodeComponent .., natAbs_decodeComponent ..⟩

/-! ## Writing what has been read -/

/-- The bits of the first byte that mean something: the sign of each magnitude that is not zero. -/
def signMask (data : ByteArray) : UInt8 :=
  let bit (sign : UInt8) (i : Nat) : UInt8 :=
    if Chunk.byteAt data i = 0 ∧ Chunk.byteAt data (i + 1) = 0 ∧ Chunk.byteAt data (i + 2) = 0 then 0
    else sign
  bit 4 1 ||| bit 2 4 ||| bit 1 7

/-- The header of some data, with all bits cleared that mean nothing. -/
def canonicalHeader (data : ByteArray) : List UInt8 :=
  (Chunk.byteAt data 0 &&& signMask data) :: (List.range 9).map fun i => Chunk.byteAt data (1 + i)

/-- The header of some data depends on their first ten bytes. -/
theorem canonicalHeader_congr {data data' : ByteArray}
    (h : ∀ k < 10, Chunk.byteAt data k = Chunk.byteAt data' k) :
    canonicalHeader data = canonicalHeader data' := by
  have hrest : ((List.range 9).map fun i => Chunk.byteAt data (1 + i))
      = (List.range 9).map fun i => Chunk.byteAt data' (1 + i) := by
    refine List.map_congr_left fun i hi => h (1 + i) ?_
    have hlt := List.mem_range.mp hi
    omega
  simp only [canonicalHeader, signMask, hrest, h 0 (by decide), h 1 (by decide), h 2 (by decide),
    h 3 (by decide), h 4 (by decide), h 5 (by decide), h 6 (by decide), h 7 (by decide),
    h 8 (by decide), h 9 (by decide), Nat.reduceAdd]

theorem signs_and_mask_ofNat : ∀ (b : Fin 256) (x y z : Bool),
    let b := UInt8.ofNat b.val
    ((if (b &&& 4 != 0) = true ∧ ¬x = true then 4 else 0)
        ||| (if (b &&& 2 != 0) = true ∧ ¬y = true then 2 else 0)
        ||| (if (b &&& 1 != 0) = true ∧ ¬z = true then 1 else 0) : UInt8)
      = b &&& ((if x = true then 0 else 4) ||| (if y = true then 0 else 2)
        ||| (if z = true then 0 else 1)) := by
  decide +kernel

theorem signs_decodeHeader (data : ByteArray) :
    signs (decodeHeader data) = Chunk.byteAt data 0 &&& signMask data := by
  let zero (i : Nat) : Bool :=
    decide (Chunk.byteAt data i = 0 ∧ Chunk.byteAt data (i + 1) = 0 ∧ Chunk.byteAt data (i + 2) = 0)
  have hbits := signs_and_mask_ofNat ⟨_, (Chunk.byteAt data 0).toNat_lt⟩ (zero 1) (zero 4) (zero 7)
  simp only [UInt8.ofNat_toNat, zero, decide_eq_true_eq] at hbits
  simp only [signs, decodeHeader, decodeComponent_neg_iff, signMask]
  exact hbits

/-- What has been read from a header is written as the same header, without the bits that mean
nothing. -/
theorem encodeHeader_decodeHeader (data : ByteArray) :
    encodeHeader (decodeHeader data) = .ok (canonicalHeader data) := by
  rw [encodeHeader_of_allPass (allPass_of_inRange (inRange_decodeHeader data)), headerBytes,
    signs_decodeHeader]
  simp only [decodeHeader, magnitudeBytes_decodeComponent]
  rfl

end Header

end Megachunk

end BlockWorld
