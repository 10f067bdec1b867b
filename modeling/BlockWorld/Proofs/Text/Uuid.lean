import BlockWorld.Proofs.Data.Yaml.Source
import BlockWorld.Text.Uuid
/-!
The characters of identifiers.

The forms of an identifier are given in bytes. In the one of thirty-eight bytes the first byte and the last
may be any, and all others are digits and dashes, as they are in the other forms. So no two bytes that
follow each other can belong to one longer character (`ascii_of_solid`): every character has one byte, and
only the first and the last may be something else than a digit, a dash or one of the letters of a name
(`isValid_forms`).
-/
namespace BlockWorld.Text.Uuid

open Data.Yaml

/-- A byte that is a character of its own and ends no line. -/
def isSolid (b : UInt8) : Bool := b.toNat < 128 && !isBreak (Char.ofNat b.toNat)

theorem forall_bytes {p : UInt8 → Bool} (h : ((List.range 256).all fun n => p (UInt8.ofNat n)) = true) (b : UInt8) :
    p b = true := by
  have hp := List.all_eq_true.mp h b.toNat (List.mem_range.mpr b.toNat_lt)
  rwa [UInt8.ofNat_toNat] at hp

theorem isSolid_of_isHexByte {b : UInt8} (h : isHexByte b = true) : isSolid b = true := by
  have hall := forall_bytes (p := fun b => isHexByte b → isSolid b) (by decide +kernel) b
  exact of_decide_eq_true hall h

theorem isSolid_of_toLower {b : UInt8} (h : (Char.ofNat b.toNat).toLower ∈ "urn:uuid:".toList) :
    isSolid b = true := by
  have hall := forall_bytes (p := fun b => (Char.ofNat b.toNat).toLower ∈ "urn:uuid:".toList → isSolid b)
    (by decide +kernel) b
  exact of_decide_eq_true hall h

theorem isSolid_of_isGrouped {bytes : List UInt8} (h : isGrouped bytes = true) {i : Nat} (hi : i < 36) :
    ∃ b, bytes[i]? = some b ∧ isSolid b = true := by
  have hbyte := List.all_eq_true.mp h i (List.mem_range.mpr hi)
  split at hbyte
  · cases hbyte
  · rename_i b hb
    refine ⟨b, hb, ?_⟩
    split at hbyte
    · rw [beq_iff_eq.mp hbyte]
      decide
    · exact isSolid_of_isHexByte hbyte

/-- Groups that stand behind other bytes. -/
theorem isSolid_of_isGrouped_drop {bytes : List UInt8} {k i : Nat} (h : isGrouped (bytes.drop k) = true) (hk : k ≤ i)
    (hi : i < k + 36) : ∃ b, bytes[i]? = some b ∧ isSolid b = true := by
  obtain ⟨b, hb, hsolid⟩ := isSolid_of_isGrouped h (i := i - k) (by omega)
  rw [List.getElem?_drop, Nat.add_sub_of_le hk] at hb
  exact ⟨b, hb, hsolid⟩

/-- Between the first and the last byte of an identifier all are characters of their own. -/
theorem isSolid_of_isValid {s : String} (h : isValid s = true) :
    32 ≤ s.toUTF8.toList.length ∧ ∀ i, 0 < i → i + 1 < s.toUTF8.toList.length →
      ∃ b, s.toUTF8.toList[i]? = some b ∧ isSolid b = true := by
  have hgrouped : ∀ {bytes : List UInt8},
      (if isGrouped bytes = true then (.ok () : Except Problem Unit) else .error .format).isOk = true →
        isGrouped bytes = true := by
    intro bytes h
    split at h
    · assumption
    · cases h
  rw [isValid] at h
  unfold check at h
  generalize s.toUTF8.toList = bytes at h
  dsimp only at h
  split at h
  · rename_i hlength
    exact ⟨by omega, fun i _ hi => isSolid_of_isGrouped (hgrouped h) (by omega)⟩
  · rename_i hlength
    refine ⟨by omega, fun i _ hi => ?_⟩
    split at h
    · rename_i hhead
      by_cases hprefix : i < 9
      · refine ⟨bytes.get ⟨i, by omega⟩, by simp, isSolid_of_toLower ?_⟩
        rw [← hhead, String.toList_ofList]
        exact List.mem_map_of_mem (List.mem_take_iff_getElem.mpr ⟨i, by omega, rfl⟩)
      · exact isSolid_of_isGrouped_drop (hgrouped h) (by omega) (by omega)
    · cases h
  · rename_i hlength
    exact ⟨by omega, fun i hpos hi => isSolid_of_isGrouped_drop (hgrouped h) hpos (by omega)⟩
  · rename_i hlength
    refine ⟨by omega, fun i _ hi => ?_⟩
    split at h
    · rename_i hall
      refine ⟨bytes.get ⟨i, by omega⟩, by simp, isSolid_of_isHexByte ?_⟩
      exact List.all_eq_true.mp hall _ (List.get_mem ..)
    · cases h
  · cases h

/-! ## Characters -/

/-- A longer character starts with two bytes that are no characters of their own. -/
theorem utf8EncodeChar_of_not_ascii {c : Char} (h : ¬c.toNat < 128) :
    ∃ a b rest, String.utf8EncodeChar c = a :: b :: rest ∧ 128 ≤ a.toNat ∧ 128 ≤ b.toNat := by
  have hbyte : ∀ {n}, 128 ≤ n → n < 256 → 128 ≤ (UInt8.ofNat n).toNat := fun hge hlt => by
    rw [UInt8.toNat_ofNat_of_lt' hlt]
    exact hge
  unfold String.utf8EncodeChar
  dsimp only
  rw [if_neg (show ¬c.val.toNat ≤ 127 from fun hle => h (Nat.lt_succ_of_le hle))]
  split
  · exact ⟨_, _, _, rfl, hbyte (by omega) (by omega), hbyte (by omega) (by omega)⟩
  · split
    · exact ⟨_, _, _, rfl, hbyte (by omega) (by omega), hbyte (by omega) (by omega)⟩
    · exact ⟨_, _, _, rfl, hbyte (by omega) (by omega), hbyte (by omega) (by omega)⟩

/-- Where no two bytes can belong to one character, each belongs to one of its own. -/
theorem ascii_of_solid {s : String} (hlength : 2 < s.toUTF8.toList.length)
    (h : ∀ i, 0 < i → i + 1 < s.toUTF8.toList.length → ∃ b, s.toUTF8.toList[i]? = some b ∧ isSolid b = true) :
    ∀ c ∈ s.toList, c.toNat < 128 := by
  intro c hc
  by_cases hlt : c.toNat < 128
  · exact hlt
  obtain ⟨before, after, hsplit⟩ := List.append_of_mem hc
  obtain ⟨a, b, rest, hencode, ha, hb⟩ := utf8EncodeChar_of_not_ascii hlt
  have hbytes : s.toUTF8.toList
      = before.flatMap String.utf8EncodeChar ++ a :: b :: (rest ++ after.flatMap String.utf8EncodeChar) := by
    rw [toList_toUTF8, hsplit, List.flatMap_append, List.flatMap_cons, hencode]
    rfl
  generalize s.toUTF8.toList = bytes at hbytes h hlength
  obtain ⟨i, hi⟩ : ∃ i, (before.flatMap String.utf8EncodeChar).length = i := ⟨_, rfl⟩
  have hfirst : bytes[i]? = some a := by rw [hbytes, ← hi]; simp
  have hsecond : bytes[i + 1]? = some b := by rw [hbytes, ← hi]; simp
  have hend : i + 1 < bytes.length := (List.getElem?_eq_some_iff.mp hsecond).1
  have hsolid : ∀ {b}, isSolid b = true → b.toNat < 128 := fun hb =>
    of_decide_eq_true (Bool.and_eq_true_iff.mp hb).1
  exfalso
  by_cases hpos : 0 < i
  · obtain ⟨x, hx, hs⟩ := h i hpos hend
    rw [hfirst] at hx
    obtain rfl := Option.some.inj hx
    exact Nat.not_lt.mpr ha (hsolid hs)
  · obtain ⟨x, hx, hs⟩ := h (i + 1) (Nat.succ_pos i) (by omega)
    rw [hsecond] at hx
    obtain rfl := Option.some.inj hx
    exact Nat.not_lt.mpr hb (hsolid hs)

/-- A solid byte ends no line. -/
theorem isBreak_of_isSolid {c : Char} (hascii : c.toNat < 128) (h : isSolid (byteOf c) = true) :
    isBreak c = false := by
  have hall := forall_ascii (p := fun c => !isSolid (byteOf c) || !isBreak c) (by decide +kernel) hascii
  simpa [h] using hall

/-- The characters of an identifier. Only the first and the last may end a line. -/
theorem isValid_forms {s : String} (h : isValid s = true) :
    (∀ c ∈ s.toList, c.toNat < 128)
      ∧ ∃ a middle b, s.toList = a :: (middle ++ [b]) ∧ ∀ c ∈ middle, isBreak c = false := by
  obtain ⟨hlength, hsolid⟩ := isSolid_of_isValid h
  have hascii := ascii_of_solid (by omega) hsolid
  refine ⟨hascii, ?_⟩
  have hbytes := toList_toUTF8_of_ascii hascii
  rw [hbytes, List.length_map] at hlength hsolid
  generalize s.toList = cs at hascii hlength hsolid
  obtain ⟨a, rest, rfl⟩ := List.exists_cons_of_ne_nil (List.ne_nil_of_length_pos (l := cs) (by omega))
  have hrest : rest ≠ [] := List.ne_nil_of_length_pos (by rw [List.length_cons] at hlength; omega)
  obtain ⟨middle, b, rfl⟩ : ∃ middle b, rest = middle ++ [b] :=
    ⟨rest.dropLast, rest.getLast hrest, (List.dropLast_concat_getLast hrest).symm⟩
  refine ⟨a, middle, b, rfl, fun c hc => ?_⟩
  obtain ⟨i, hi⟩ := List.mem_iff_getElem?.mp hc
  have hbound : i < middle.length := (List.getElem?_eq_some_iff.mp hi).1
  obtain ⟨x, hx, hs⟩ := hsolid (i + 1) (Nat.succ_pos i) (by simp; omega)
  have hat : (a :: (middle ++ [b]))[i + 1]? = some c := by
    rw [List.getElem?_cons_succ, List.getElem?_append_left hbound, hi]
  rw [List.getElem?_map, hat] at hx
  obtain rfl := Option.some.inj hx
  exact isBreak_of_isSolid (hascii c (by simp [hc])) hs

end BlockWorld.Text.Uuid
