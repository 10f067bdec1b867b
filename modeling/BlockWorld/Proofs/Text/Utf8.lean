import BlockWorld.Text.Uuid
import Mathlib.Tactic.SplitIfs
/-!
The bytes of texts. Texts compare like their bytes, because a greater character has greater bytes and
no character's bytes are the beginning of another one's (`bytes_lt`). An identifier in its plain form
has only digits and dashes (`Uuid.IsPlain`), so a colon behind it marks where it ends. All identifiers of
a store have that form (`Uuid.isPlain_ofNat`).

How the proof goes. `Before` says that of two lists of bytes one is smaller at a place that both have, so that
whatever follows does not matter. Two different characters are in this relation (`before_utf8EncodeChar`): if
their numbers of bytes differ the first byte decides, and otherwise the bytes are digits of the two numbers,
of which the first that differs decides (`before_last`, `before_lastTwo`, `before_lastThree`). Texts are then
compared character by character, by induction. The identifiers of a store are numbers written with hexadecimal
digits, whose bytes are computed digit by digit (`hexBytes_succ`, `bytes_ofNat`).
-/
namespace BlockWorld.Text

/-- The bytes of a text. -/
def bytes (s : String) : List UInt8 := s.toUTF8.data.toList

theorem bytes_eq (s : String) : bytes s = s.toList.flatMap String.utf8EncodeChar := by
  rw [bytes, String.toUTF8_eq_toByteArray, ← String.utf8Encode_toList, List.utf8Encode,
    List.toList_data_toByteArray]

/-! ## Order -/

/-- Bytes that come before others at a place that both have, whatever follows. -/
def Before (a b : List UInt8) : Prop := ∀ s t, a ++ s < b ++ t

theorem before_of_head {m n : Nat} (hn : n < 256) (h : m < n) (a b : List UInt8) :
    Before (UInt8.ofNat m :: a) (UInt8.ofNat n :: b) := by
  intro s t
  refine List.Lex.rel (UInt8.lt_iff_toNat_lt.mpr ?_)
  rw [UInt8.toNat_ofNat_of_lt' (Nat.lt_trans h hn), UInt8.toNat_ofNat_of_lt' hn]
  exact h

theorem before_of_tail {a b : List UInt8} (x : UInt8) (h : Before a b) :
    Before (x :: a) (x :: b) :=
  fun s t => List.Lex.cons (h s t)

/-- The last of several bytes, after equal ones. -/
theorem before_last {m n : Nat} (h : m < n) (hsame : m / 64 = n / 64) :
    Before [UInt8.ofNat (m % 64 + 128)] [UInt8.ofNat (n % 64 + 128)] :=
  before_of_head (by omega) (by omega) [] []

/-- The last two of several bytes, after equal ones. -/
theorem before_lastTwo {m n : Nat} (h : m < n) (hsame : m / 4096 = n / 4096) :
    Before [UInt8.ofNat (m / 64 % 64 + 128), UInt8.ofNat (m % 64 + 128)]
      [UInt8.ofNat (n / 64 % 64 + 128), UInt8.ofNat (n % 64 + 128)] := by
  by_cases hfirst : m / 64 < n / 64
  · exact before_of_head (by omega) (by omega) _ _
  · have heq : m / 64 = n / 64 := by omega
    rw [heq]
    exact before_of_tail _ (before_last h heq)

/-- The last three of four bytes, after equal ones. -/
theorem before_lastThree {m n : Nat} (h : m < n) (hsame : m / 262144 = n / 262144) :
    Before
      [UInt8.ofNat (m / 4096 % 64 + 128), UInt8.ofNat (m / 64 % 64 + 128),
        UInt8.ofNat (m % 64 + 128)]
      [UInt8.ofNat (n / 4096 % 64 + 128), UInt8.ofNat (n / 64 % 64 + 128),
        UInt8.ofNat (n % 64 + 128)] := by
  by_cases hfirst : m / 4096 < n / 4096
  · exact before_of_head (by omega) (by omega) _ _
  · have heq : m / 4096 = n / 4096 := by omega
    rw [heq]
    exact before_of_tail _ (before_lastTwo h heq)

theorem before_utf8EncodeChar {c d : Char} (h : c < d) :
    Before (String.utf8EncodeChar c) (String.utf8EncodeChar d) := by
  have hlt : c.val.toNat < d.val.toNat := h
  have hbound : d.val.toNat < 0x110000 := by
    have hvalid := d.valid
    simp only [UInt32.isValidChar, Nat.isValidChar] at hvalid
    omega
  unfold String.utf8EncodeChar
  generalize c.val.toNat = m at hlt
  generalize d.val.toNat = n at hlt hbound
  dsimp only
  -- Of characters with different numbers of bytes the first bytes decide.
  by_cases hm1 : m ≤ 127
  · rw [if_pos hm1]
    split_ifs <;> exact before_of_head (by omega) (by omega) _ _
  rw [if_neg hm1, if_neg (show ¬n ≤ 127 by omega)]
  by_cases hm2 : m ≤ 2047
  · rw [if_pos hm2]
    split_ifs with hn2
    · by_cases hfirst : m / 64 < n / 64
      · exact before_of_head (by omega) (by omega) _ _
      · have heq : m / 64 = n / 64 := by omega
        rw [heq]
        exact before_of_tail _ (before_last hlt heq)
    all_goals exact before_of_head (by omega) (by omega) _ _
  rw [if_neg hm2, if_neg (show ¬n ≤ 2047 by omega)]
  by_cases hm3 : m ≤ 65535
  · rw [if_pos hm3]
    split_ifs with hn3
    · by_cases hfirst : m / 4096 < n / 4096
      · exact before_of_head (by omega) (by omega) _ _
      · have heq : m / 4096 = n / 4096 := by omega
        rw [heq]
        exact before_of_tail _ (before_lastTwo hlt heq)
    · exact before_of_head (by omega) (by omega) _ _
  rw [if_neg hm3, if_neg (show ¬n ≤ 65535 by omega)]
  by_cases hfirst : m / 262144 < n / 262144
  · exact before_of_head (by omega) (by omega) _ _
  · have heq : m / 262144 = n / 262144 := by omega
    rw [heq]
    exact before_of_tail _ (before_lastThree hlt heq)

/-- Texts compare like their bytes. -/
theorem bytes_lt {s t : String} (h : s < t) : bytes s < bytes t := by
  change s.toList < t.toList at h
  rw [bytes_eq, bytes_eq]
  generalize s.toList = cs at h
  generalize t.toList = ds at h
  induction h with
  | nil =>
    rename_i d ds
    rw [List.flatMap_nil, List.flatMap_cons]
    have hsome : String.utf8EncodeChar d ≠ [] := String.utf8EncodeChar_ne_nil
    obtain ⟨x, xs, hx⟩ := List.exists_cons_of_ne_nil hsome
    rw [hx]
    exact List.Lex.nil
  | rel hlt =>
    rw [List.flatMap_cons, List.flatMap_cons]
    exact before_utf8EncodeChar hlt _ _
  | cons _ ih =>
    rw [List.flatMap_cons, List.flatMap_cons]
    exact List.append_left_lt ih

/-! ## Identifiers -/

/-- An identifier in its plain form: thirty-six bytes in five groups of digits with dashes between
them. -/
def Uuid.IsPlain (s : String) : Prop :=
  (bytes s).length = 36 ∧ isGrouped (bytes s) = true

instance (s : String) : Decidable (Uuid.IsPlain s) := inferInstanceAs (Decidable (_ ∧ _))

namespace Uuid

theorem IsPlain.ne_empty {s : String} (h : IsPlain s) : s ≠ "" := by
  rintro rfl
  exact absurd h.1 (by decide)

theorem IsPlain.no_colon {s : String} (h : IsPlain s) : ':' ∉ s.toList := by
  intro hmem
  have hbyte : 58 ∈ bytes s := by
    rw [bytes_eq]
    exact List.mem_flatMap.mpr ⟨':', hmem, by decide⟩
  obtain ⟨i, hi, hget⟩ := List.mem_iff_getElem.mp hbyte
  have hgroup := List.all_eq_true.mp h.2 i (List.mem_range.mpr (h.1 ▸ hi))
  rw [List.getElem?_eq_getElem hi, hget] at hgroup
  simp only at hgroup
  split at hgroup <;> exact absurd hgroup (by decide)

/-! ### Numbered identifiers -/

/-- The bytes of the last hexadecimal digits of a number. -/
def hexBytes (width n : Nat) : List UInt8 := (hexDigits width n).flatMap String.utf8EncodeChar

theorem utf8EncodeChar_hexDigit (n : Nat) :
    ∃ b, String.utf8EncodeChar (hexDigit (n % 16)) = [b] ∧ isHexByte b = true := by
  have hdigits : ∀ k < 16, ∃ b ∈ String.utf8EncodeChar (hexDigit k),
      String.utf8EncodeChar (hexDigit k) = [b] ∧ isHexByte b = true := by decide
  obtain ⟨b, -, h⟩ := hdigits (n % 16) (Nat.mod_lt _ (by decide))
  exact ⟨b, h⟩

theorem hexBytes_succ (width n : Nat) :
    ∃ b, isHexByte b = true ∧ hexBytes (width + 1) n = hexBytes width (n / 16) ++ [b] := by
  obtain ⟨b, hb, hhex⟩ := utf8EncodeChar_hexDigit n
  refine ⟨b, hhex, ?_⟩
  rw [hexBytes, hexDigits, List.flatMap_append, List.flatMap_singleton, hb, hexBytes]

theorem length_hexBytes (width n : Nat) : (hexBytes width n).length = width := by
  induction width generalizing n with
  | zero => rfl
  | succ width ih =>
    obtain ⟨b, -, h⟩ := hexBytes_succ width n
    rw [h, List.length_append, ih, List.length_singleton]

theorem isHexByte_of_mem {width n : Nat} {b : UInt8} (h : b ∈ hexBytes width n) :
    isHexByte b = true := by
  induction width generalizing n with
  | zero => cases h
  | succ width ih =>
    obtain ⟨c, hc, heq⟩ := hexBytes_succ width n
    rw [heq] at h
    rcases List.mem_append.mp h with h | h
    · exact ih h
    · rw [List.mem_singleton.mp h, hc]

theorem bytes_ofNat (n : Nat) :
    bytes (ofNat n)
      = bytes "7f3c9a52-" ++ hexBytes 4 (n >>> 48) ++ bytes "-4b1e-9d06-" ++ hexBytes 12 n := by
  simp only [bytes_eq, ofNat, hex, String.toList_append, String.toList_ofList, List.flatMap_append,
    hexBytes]

/-- Every numbered identifier is in its plain form. -/
theorem isPlain_ofNat (n : Nat) : IsPlain (ofNat n) := by
  have hstart : bytes "7f3c9a52-" = [55, 102, 51, 99, 57, 97, 53, 50, 45] := by decide
  have hmiddle : bytes "-4b1e-9d06-" = [45, 52, 98, 49, 101, 45, 57, 100, 48, 54, 45] := by decide
  have hfixed : ∀ b ∈ ([55, 102, 51, 99, 57, 97, 53, 50, 52, 98, 49, 101, 100, 48, 54] : List UInt8),
      isHexByte b = true := List.all_eq_true.mp (by decide)
  have hhigh := length_hexBytes 4 (n >>> 48)
  have hhighHex := @isHexByte_of_mem 4 (n >>> 48)
  have hlow := length_hexBytes 12 n
  have hlowHex := @isHexByte_of_mem 12 n
  rw [IsPlain, bytes_ofNat, hstart, hmiddle]
  generalize hexBytes 4 (n >>> 48) = high at *
  generalize hexBytes 12 n = low at *
  refine ⟨by simp [hlow, hhigh], ?_⟩
  -- With the digits of both groups named, the thirty-six bytes are looked at one by one.
  match high, hhigh with
  | [a, b, c, d], _ =>
  match low, hlow with
  | [e, f, g, h, i, j, k, l, m, o, p, q], _ =>
    simp only [List.mem_cons, List.not_mem_nil, or_false, forall_eq_or_imp, forall_eq]
      at hfixed hhighHex hlowHex
    simp [isGrouped, List.range, List.range.loop, hfixed, hhighHex, hlowHex]

end Uuid

end BlockWorld.Text
