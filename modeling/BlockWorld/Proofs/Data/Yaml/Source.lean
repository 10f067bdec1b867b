import BlockWorld.Data.Yaml.Source
import BlockWorld.Proofs.Text.Utf8
/-!
Texts of plain ASCII characters are read from their bytes as they are.

Bytes are read in pieces, and a piece may end inside a character. With one byte for each character that does
not happen: a piece of so many bytes gives so many characters (`readPiece_byteOf`), by induction on the size
of the piece, and all pieces together give the text (`readPieces_byteOf`), by induction on what is left.

How the proof goes. A character below 128 is written as one byte (`utf8EncodeChar_of_ascii`), so the bytes of
such a text are those of its characters in order (`toList_toUTF8_of_ascii`). Which marks a text may start with
is decided by its first bytes, and none of them is below 128 (`detect_byteOf`). The two inductions then give
the whole text (`ofBytes_toUTF8`). What has to be known of single characters is tried for all 128 of them
(`forall_ascii`).
-/
namespace BlockWorld.Data.Yaml

/-- A character of one byte that a text may hold. -/
def IsAscii (c : Char) : Prop := c.toNat < 128 ∧ isAllowed c = true

instance (c : Char) : Decidable (IsAscii c) := inferInstanceAs (Decidable (_ ∧ _))

theorem isAscii_of_all {v : List Char} (h : (v.all fun c => decide (IsAscii c)) = true) : ∀ c ∈ v, IsAscii c :=
  fun c hc => of_decide_eq_true (List.all_eq_true.mp h c hc)

/-- The byte of such a character. -/
def byteOf (c : Char) : UInt8 := UInt8.ofNat c.toNat

/-- What can be tried for each character of one byte holds for them all. -/
theorem forall_ascii {p : Char → Bool} (h : ((List.range 128).all fun n => p (Char.ofNat n)) = true) {c : Char}
    (hc : c.toNat < 128) : p c = true := by
  have hp := List.all_eq_true.mp h c.toNat (List.mem_range.mpr hc)
  rwa [Char.ofNat_toNat] at hp

/-! ## Bytes of a text -/

theorem toNat_byteOf {c : Char} (h : c.toNat < 128) : (byteOf c).toNat = c.toNat :=
  UInt8.toNat_ofNat_of_lt' (Nat.lt_trans h (by decide))

theorem utf8EncodeChar_of_ascii {c : Char} (h : c.toNat < 128) : String.utf8EncodeChar c = [byteOf c] := by
  have hlt : c.val.toNat ≤ 0x7f := Nat.le_of_lt_succ h
  rw [String.utf8EncodeChar]
  exact if_pos hlt

theorem loop_toList (b : ByteArray) (i : Nat) (done : List UInt8) :
    ByteArray.toList.loop b i done = done.reverse ++ b.data.toList.drop i := by
  fun_induction ByteArray.toList.loop b i done with
  | case1 i done hlt ih =>
    have hget : b.data.toList.drop i = b.get! i :: b.data.toList.drop (i + 1) := by
      rw [List.drop_eq_getElem_cons (by simpa using hlt), ByteArray.get!, getElem!_pos b.data i hlt,
        Array.getElem_toList]
    rw [ih, hget, List.reverse_cons, List.append_assoc]
    rfl
  | case2 i done hge =>
    rw [List.drop_of_length_le (by simpa using Nat.not_lt.mp hge), List.append_nil]

theorem toList_toUTF8 (s : String) : s.toUTF8.toList = s.toList.flatMap String.utf8EncodeChar := by
  rw [ByteArray.toList, loop_toList, List.reverse_nil, List.nil_append, List.drop_zero]
  exact Text.bytes_eq s

theorem toList_toUTF8_of_ascii {s : String} (h : ∀ c ∈ s.toList, c.toNat < 128) :
    s.toUTF8.toList = s.toList.map byteOf := by
  rw [toList_toUTF8]
  generalize s.toList = cs at h
  induction cs with
  | nil => rfl
  | cons c cs ih =>
    rw [List.flatMap_cons, utf8EncodeChar_of_ascii (h c List.mem_cons_self), List.map_cons,
      ih fun d hd => h d (List.mem_cons_of_mem c hd)]
    rfl

/-! ## Pieces -/

theorem decodeUtf8_byteOf {c : Char} (h : IsAscii c) (more : List UInt8) :
    decodeUtf8 (byteOf c :: more) = .char c 1 := by
  have hlead : byteAt (byteOf c :: more) 0 = c.toNat := toNat_byteOf h.1
  have hlt : c.toNat < 0x80 := h.1
  have hcode : Decoded.ofCode c.toNat 1 = .char c 1 := by
    rw [Decoded.ofCode, Char.ofNat_toNat, h.2, if_pos rfl, if_neg]
    simp
    omega
  rw [decodeUtf8]
  simp only [hlead, if_pos hlt]
  simpa using hcode

theorem readPiece_byteOf {cs : List Char} (h : ∀ c ∈ cs, IsAscii c) {fuel size : Nat} (hfuel : size ≤ fuel)
    (done : List Char) :
    readPiece .utf8 fuel size done (cs.map byteOf)
      = some ((cs.take size).reverse ++ done, (cs.drop size).map byteOf) := by
  induction fuel generalizing cs size done with
  | zero =>
    obtain rfl : size = 0 := by omega
    rfl
  | succ fuel ih =>
    rw [readPiece]
    cases size with
    | zero => rfl
    | succ size =>
      cases cs with
      | nil => rfl
      | cons c cs =>
        have hmin : ((c :: cs).map byteOf).take (min (size + 1) 4)
            = byteOf c :: (cs.map byteOf).take (min (size + 1) 4 - 1) := by
          rw [List.map_cons]
          exact List.take_cons (by omega)
        rw [if_neg (by simp), hmin, Encoding.decode, decodeUtf8_byteOf (h c List.mem_cons_self)]
        dsimp only
        rw [Nat.add_sub_cancel, List.map_cons, List.drop_one, List.tail_cons,
          ih (fun d hd => h d (List.mem_cons_of_mem c hd)) (by omega)]
        simp

theorem readPieces_byteOf {cs : List Char} (h : ∀ c ∈ cs, IsAscii c) {fuel : Nat} (hfuel : cs.length < fuel)
    (done : List Char) :
    readPieces .utf8 fuel done (cs.map byteOf) = (cs.reverse ++ done, false) := by
  induction fuel generalizing cs done with
  | zero => omega
  | succ fuel ih =>
    rw [readPieces]
    cases cs with
    | nil => rfl
    | cons c cs =>
      rw [if_neg (by simp), readPiece_byteOf h (Nat.le_refl _)]
      dsimp only
      rw [if_neg (by simp [pieceSize]; omega),
        ih (fun d hd => h d (List.mem_of_mem_drop hd)) (by simp [pieceSize] at hfuel ⊢; omega),
        ← List.append_assoc, ← List.reverse_append, List.take_append_drop]

theorem detect_byteOf {cs : List Char} (h : ∀ c ∈ cs, IsAscii c) : detect (cs.map byteOf) = (.utf8, 0) := by
  cases cs with
  | nil => rfl
  | cons c cs =>
    have hbyte : (byteOf c).toNat < 128 := by
      rw [toNat_byteOf (h c List.mem_cons_self).1]
      exact (h c List.mem_cons_self).1
    rw [List.map_cons, detect.eq_def]
    split
    · rename_i heq
      rw [(List.cons.inj heq).1] at hbyte
      exact absurd hbyte (by decide)
    · rename_i heq
      rw [(List.cons.inj heq).1] at hbyte
      exact absurd hbyte (by decide)
    · rename_i heq
      rw [(List.cons.inj heq).1] at hbyte
      exact absurd hbyte (by decide)
    · rfl

/-- The bytes of a text stand for the text. -/
theorem ofBytes_toUTF8 {s : String} (h : ∀ c ∈ s.toList, IsAscii c) :
    (Source.ofBytes s.toUTF8).chars = s.toList ∧ (Source.ofBytes s.toUTF8).broken = false := by
  rw [Source.ofBytes, toList_toUTF8_of_ascii fun c hc => (h c hc).1, detect_byteOf h]
  dsimp only
  rw [List.drop_zero, Nat.sub_zero, readPiece_byteOf h (Nat.le_refl _)]
  dsimp only
  rw [readPieces_byteOf (fun c hc => h c (List.mem_of_mem_drop hc)) (by simp), List.append_nil]
  dsimp only
  rw [← List.reverse_append, List.take_append_drop, List.reverse_reverse]
  exact ⟨rfl, rfl⟩

end BlockWorld.Data.Yaml
