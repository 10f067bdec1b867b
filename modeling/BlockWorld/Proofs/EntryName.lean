import BlockWorld.Save.EntryName
import BlockWorld.Save.Manifest
/-!
Names of entries are read back as the megachunks they were made for (`parse?_ofCoord`). A name is
taken apart at its underscores, none of which stands inside a number, and a number is read digit by
digit as it was written, the last digit being the remainder by ten (`readInteger_integer`).

How the proof goes. Digits are read from left to right on top of the number so far (`magnitudeFrom_append`),
and the digits of `n` are those of `n / 10` followed by one more, so the induction is on the number
(`magnitudeFrom_toDigits`). Every number on the way is at most the last one, so that the test for 64 bits,
which is made after each digit, passes. The three numbers are found again by splitting at underscores
(`splitOn_integers`), between two fixed parts that are cut off first (`middle?_append`). That no two
megachunks have the same name follows (`ofCoord_injective`).
-/
namespace BlockWorld

open Grid

/-! ## Decimal integers -/

namespace Text

theorem digitValue?_digitChar : ∀ d < 10, digitValue? (Nat.digitChar d) = some d := by decide

/-- Reading goes from left to right. -/
theorem magnitudeFrom_append (acc : Nat) (cs ds : List Char) :
    magnitudeFrom acc (cs ++ ds) = (magnitudeFrom acc cs).bind fun n => magnitudeFrom n ds := by
  induction cs generalizing acc with
  | nil => rfl
  | cons c cs ih =>
    rw [List.cons_append, magnitudeFrom, magnitudeFrom]
    cases digitValue? c with
    | none => rfl
    | some d =>
      dsimp only
      split
      · exact ih _
      · rfl

theorem magnitudeFrom_digit (acc d : Nat) (hd : d < 10) (hfits : acc * 10 + d < UInt64.size) :
    magnitudeFrom acc [Nat.digitChar d] = .ok (acc * 10 + d) := by
  rw [magnitudeFrom, digitValue?_digitChar d hd]
  dsimp only
  rw [if_pos hfits, magnitudeFrom]

/-- The digits of a number are read as this number. -/
theorem magnitudeFrom_toDigits (n : Nat) (hn : n < UInt64.size) :
    magnitudeFrom 0 (Nat.toDigits 10 n) = .ok n := by
  induction n using Nat.strongRecOn with
  | ind n ih =>
    by_cases hlt : n < 10
    · rw [Nat.toDigits_of_lt_base hlt]
      have hdigit := magnitudeFrom_digit 0 n hlt (by omega)
      rwa [Nat.zero_mul, Nat.zero_add] at hdigit
    · have hdiv := ih (n / 10) (by omega) (by omega)
      have hrest : n / 10 * 10 + n % 10 = n := by omega
      rw [Nat.toDigits_of_base_le (by decide) (by omega), magnitudeFrom_append, hdiv]
      change magnitudeFrom (n / 10) [Nat.digitChar (n % 10)] = .ok n
      rw [magnitudeFrom_digit _ _ (Nat.mod_lt n (by decide)) (by omega), hrest]

theorem isDigit_of_mem_toDigits {n : Nat} {c : Char} (hc : c ∈ Nat.toDigits 10 n) :
    c.isDigit = true :=
  Nat.isDigit_of_mem_toDigits (by decide) (by decide) hc

/-- Digits have no sign in front of them. -/
theorem splitSign_toDigits (n : Nat) :
    splitSign (Nat.toDigits 10 n) = (false, Nat.toDigits 10 n) := by
  have hdigit := fun c => isDigit_of_mem_toDigits (n := n) (c := c)
  generalize Nat.toDigits 10 n = cs at hdigit
  rw [splitSign.eq_def]
  split
  · exact absurd (hdigit '-' List.mem_cons_self) (by decide)
  · exact absurd (hdigit '+' List.mem_cons_self) (by decide)
  · rfl

theorem magnitude_toDigits (n : Nat) (hn : n < UInt64.size) :
    magnitude (Nat.toDigits 10 n) = .ok n := by
  have hdigits := magnitudeFrom_toDigits n hn
  cases hcs : Nat.toDigits 10 n with
  | nil => exact absurd hcs Nat.toDigits_ne_nil
  | cons c cs =>
    rw [hcs] at hdigits
    exact hdigits

/-- The characters of a number: its digits, with a minus in front if it is negative. -/
theorem toList_integer (n : Int64) :
    (integer n).toList
      = if n.toInt < 0 then '-' :: Nat.toDigits 10 n.toInt.natAbs
        else Nat.toDigits 10 n.toInt.natAbs := by
  have htext : ∀ z : Int, (toString z).toList
      = if z < 0 then '-' :: Nat.toDigits 10 z.natAbs else Nat.toDigits 10 z.natAbs := by
    intro z
    cases z with
    | ofNat k =>
      rw [if_neg (by simp)]
      exact Nat.toList_repr
    | negSucc k =>
      rw [if_pos (Int.negSucc_lt_zero k)]
      change ("-" ++ Nat.repr (k + 1)).toList = _
      rw [String.toList_append, Nat.toList_repr]
      rfl
  exact htext n.toInt

/-- A number is read as it was written. -/
theorem readInteger_integer (n : Int64) : readInteger (integer n).toList = .ok n := by
  have hge : -9223372036854775808 ≤ n.toInt := n.le_toInt
  have hlt : n.toInt < 9223372036854775808 := n.toInt_lt
  have hfits : n.toInt.natAbs < UInt64.size := by
    change n.toInt.natAbs < 18446744073709551616
    omega
  have hnumber := magnitude_toDigits n.toInt.natAbs hfits
  rw [readInteger, toList_integer]
  by_cases hneg : n.toInt < 0
  · rw [if_pos hneg]
    have hback : -(n.toInt.natAbs : Int) = n.toInt := by omega
    simp only [splitSign, hnumber, signed, if_true]
    rw [if_pos (by change n.toInt.natAbs ≤ 9223372036854775808; omega), hback, Int64.ofInt_toInt]
  · rw [if_neg hneg, splitSign_toDigits]
    have hback : (n.toInt.natAbs : Int) = n.toInt := by omega
    simp only [hnumber, signed, Bool.false_eq_true, if_false]
    rw [if_pos (by change n.toInt.natAbs < 9223372036854775808; omega), hback, Int64.ofInt_toInt]

/-- No underscore stands in a number. -/
theorem underscore_notMem_integer (n : Int64) : '_' ∉ (integer n).toList := by
  have hdigits : '_' ∉ Nat.toDigits 10 n.toInt.natAbs :=
    fun hc => absurd (isDigit_of_mem_toDigits hc) (by decide)
  rw [toList_integer]
  split
  · intro hc
    cases List.mem_cons.mp hc with
    | inl he => exact absurd he (by decide)
    | inr hc => exact hdigits hc
  · exact hdigits

end Text

/-! ## Names -/

namespace Save.EntryName

theorem number?_integer (n : Int64) : number? (Text.integer n).toList = some n := by
  rw [number?, Text.readInteger_integer]
  rfl

/-- What stands between the fixed parts of a name. -/
theorem middle?_append (cs : List Char) : middle? (head ++ cs ++ tail) = some cs := by
  have hhead : head.isPrefixOf (head ++ cs ++ tail) = true := by
    rw [List.isPrefixOf_iff_prefix, List.append_assoc]
    exact List.prefix_append ..
  have htail : tail.isSuffixOf (head ++ cs ++ tail) = true := by
    rw [List.isSuffixOf_iff_suffix]
    exact List.suffix_append ..
  have hlen : (head ++ cs ++ tail).length = head.length + cs.length + tail.length := by
    simp only [List.length_append]
  rw [middle?, hhead, htail, hlen, if_pos (by simp)]
  have hcount : head.length + cs.length + tail.length - head.length - tail.length = cs.length := by
    omega
  rw [hcount, List.append_assoc, List.drop_left, List.take_left]

/-- Three texts with underscores between them, in two fixed parts. -/
theorem toList_joined (first last x y z : String) :
    (first ++ x ++ "_" ++ y ++ "_" ++ z ++ last).toList
      = first.toList ++ ['_'].intercalate [x.toList, y.toList, z.toList] ++ last.toList := by
  have hbetween : "_".toList = ['_'] := by decide
  have hmiddle : ['_'].intercalate [x.toList, y.toList, z.toList]
      = x.toList ++ ['_'] ++ y.toList ++ ['_'] ++ z.toList := by
    simp [List.intercalate]
  simp only [hmiddle, String.toList_append, hbetween, List.append_assoc]

theorem toList_ofCoord (c : Coord) :
    (ofCoord c).toList = head
      ++ ['_'].intercalate [(Text.integer c.x).toList, (Text.integer c.y).toList,
          (Text.integer c.z).toList] ++ tail :=
  toList_joined "megachunk_" ".bin" _ _ _

theorem splitOn_integers (x y z : Int64) :
    (['_'].intercalate [(Text.integer x).toList, (Text.integer y).toList,
        (Text.integer z).toList]).splitOn '_'
      = [(Text.integer x).toList, (Text.integer y).toList, (Text.integer z).toList] :=
  List.splitOn_intercalate '_' (by simp [Text.underscore_notMem_integer]) (by simp)

/-- A name is read back as the megachunk that it was made for. -/
theorem parse?_ofCoord (c : Coord) : parse? (ofCoord c) = some c := by
  unfold parse?
  rw [toList_ofCoord, middle?_append, Option.bind_eq_bind, Option.bind_some, splitOn_integers]
  simp only [number?_integer, Option.bind_eq_bind, Option.bind_some]

theorem ofCoord_injective {c c' : Coord} (h : ofCoord c = ofCoord c') : c = c' := by
  have hparse := parse?_ofCoord c
  rw [h, parse?_ofCoord] at hparse
  exact (Option.some.inj hparse).symm

/-- The name of the manifest stands for no megachunk. -/
theorem parse?_manifest : parse? Manifest.entryName = none := by decide +kernel

theorem ofCoord_ne_manifest (c : Coord) : ofCoord c ≠ Manifest.entryName := by
  intro h
  have hparse := parse?_ofCoord c
  rw [h, parse?_manifest] at hparse
  cases hparse

/-- The name of a megachunk is not that of a folder. -/
theorem endsWith_ofCoord (c : Coord) : (ofCoord c).endsWith "/" = false := by
  have hslice : (ofCoord c).toSlice.endsWith "/" = false := by
    rw [String.Slice.endsWith_string_eq_false_iff, String.copy_toSlice]
    rintro ⟨before, hbefore⟩
    have hlast := congrArg List.getLast? hbefore
    rw [ofCoord, String.toList_append, List.getLast?_append, List.getLast?_append,
      show "/".toList.getLast? = some '/' by decide, show ".bin".toList.getLast? = some 'n' by decide] at hlast
    cases hlast
  exact hslice

end Save.EntryName

end BlockWorld
