import Mathlib.Data.Nat.Digits.Defs
import BlockWorld.Proofs.EntryName
/-!
Which names stand for megachunks. A numeral is a sign, which may be missing, and one or more decimal
digits. Reading a number takes exactly the numerals whose value fits 64 bits
(`readInteger_eq_ok_iff`), and writing one gives the plain numeral of the number
(`text_eq_integer_iff`). So a name stands for a megachunk exactly if it is made of three such numerals,
and it is the name that the megachunk is saved under exactly if all three are plain.

How the proof goes.

* Reading. `magnitudeFrom_eq_ok_iff` is an induction on the digits with the number so far in its statement:
  reading succeeds exactly if what all digits denote on top of it is small enough, and then gives that. With
  the three signs (`exists_sign`, `splitSign_append`) and the range that each of them allows
  (`signed_eq_ok_iff`) this is `readInteger_eq_ok_iff`.
* Writing. The digits that a number is written with are the only ones without a zero in front
  (`figures_eq_toDigits_iff`), by induction on the digits from the last one on: digits behind a number that is
  not zero are its further digits (`toDigits_append_figures`).
* Names. A name that is read has the two fixed parts and three texts between underscores, each of which is
  read as a number (`exists_numerals_of_parse?`); the converse is `parse?_named`, because no numeral has an
  underscore in it.
-/
namespace BlockWorld

open Grid

namespace Text

/-! ## Numerals -/

/-- What may stand before the digits of a numeral. -/
inductive Sign where
  | blank
  | plus
  | minus
  deriving DecidableEq

/-- The characters of a sign. -/
def Sign.chars : Sign → List Char
  | .blank => []
  | .plus => ['+']
  | .minus => ['-']

/-- A sign and one or more decimal digits. -/
structure Numeral where
  sign : Sign
  digits : List (Fin 10)
  digits_ne_nil : digits ≠ []

namespace Numeral

variable (n : Numeral)

/-- The number that the digits denote, the last one counting least. -/
def magnitude : Nat := Nat.ofDigits 10 (n.digits.map Fin.val).reverse

/-- The number that is denoted. -/
def value : Int := if n.sign = .minus then -(n.magnitude : Int) else n.magnitude

/-- The characters of the digits. -/
def figures : List Char := n.digits.map fun d => Nat.digitChar d.val

/-- The text of a numeral. -/
def text : String := String.ofList (n.sign.chars ++ n.figures)

/-- The value fits a signed 64-bit word. -/
def Fits : Prop := -9223372036854775808 ≤ n.value ∧ n.value ≤ 9223372036854775807

/-- There is no plus sign, no zero that could be left out, and no minus sign before zero. -/
structure Plain : Prop where
  no_plus : n.sign ≠ .plus
  no_zeros : n.digits.head n.digits_ne_nil = 0 → n.digits.length = 1
  no_minus : n.magnitude = 0 → n.sign ≠ .minus

end Numeral

/-! ## Digits -/

theorem digitValue?_eq_some_iff {c : Char} {d : Nat} :
    digitValue? c = some d ↔ ∃ k : Fin 10, c = Nat.digitChar k.val ∧ d = k.val := by
  constructor
  · intro h
    unfold digitValue? at h
    split at h
    · rename_i hc
      have hlo : 48 ≤ c.toNat := hc.1
      have hhi : c.toNat ≤ 57 := hc.2
      have hd : c.toNat - 48 = d := Option.some.inj h
      have hten : d < 10 := by omega
      refine ⟨⟨d, hten⟩, Char.toNat_inj.mp ?_, rfl⟩
      show c.toNat = (Nat.digitChar d).toNat
      rw [Nat.toNat_digitChar_of_lt_ten hten]
      omega
    · cases h
  · rintro ⟨k, rfl, rfl⟩
    exact digitValue?_digitChar k.val k.isLt

/-- A first digit and the one behind it make up one number. -/
theorem ofDigits_reverse_cons_cons (acc d : Nat) (ds : List Nat) :
    Nat.ofDigits 10 (acc :: d :: ds).reverse = Nat.ofDigits 10 ((acc * 10 + d) :: ds).reverse := by
  simp only [List.reverse_cons, Nat.ofDigits_append, List.length_append, List.length_reverse,
    List.length_singleton, Nat.ofDigits_singleton, pow_succ]
  ring

theorem le_ofDigits_reverse_cons (acc : Nat) (ds : List Nat) :
    acc ≤ Nat.ofDigits 10 (acc :: ds).reverse := by
  rw [Nat.ofDigits_reverse_cons]
  exact le_add_left (Nat.le_mul_of_pos_left acc (by positivity))

/-- Reading digits on top of a number gives what all of them denote, if this is small enough. Numbers
on the way are not greater, so the test after each digit refuses nothing that would fit in the end. -/
theorem magnitudeFrom_eq_ok_iff {cs : List Char} {acc m : Nat} (hacc : acc < UInt64.size) :
    magnitudeFrom acc cs = .ok m
      ↔ ∃ ds : List (Fin 10), cs = ds.map (fun d => Nat.digitChar d.val)
        ∧ m = Nat.ofDigits 10 (acc :: ds.map Fin.val).reverse ∧ m < UInt64.size := by
  induction cs generalizing acc with
  | nil =>
    rw [magnitudeFrom]
    constructor
    · intro h
      obtain rfl := Except.ok.inj h
      exact ⟨[], rfl, by simp, hacc⟩
    · rintro ⟨ds, hds, rfl, -⟩
      obtain rfl := List.map_eq_nil_iff.mp hds.symm
      simp
  | cons c cs ih =>
    rw [magnitudeFrom]
    constructor
    · intro h
      cases hc : digitValue? c with
      | none =>
        rw [hc] at h
        cases h
      | some d =>
        obtain ⟨k, rfl, rfl⟩ := digitValue?_eq_some_iff.mp hc
        rw [hc] at h
        dsimp only at h
        split at h
        · rename_i hnext
          obtain ⟨ds, rfl, rfl, hm⟩ := (ih hnext).mp h
          refine ⟨k :: ds, rfl, ?_, hm⟩
          rw [List.map_cons, ofDigits_reverse_cons_cons]
        · cases h
    · rintro ⟨ds, hds, hm, hfits⟩
      cases ds with
      | nil => cases hds
      | cons k ds =>
        obtain ⟨rfl, rfl⟩ := List.cons.inj hds
        rw [List.map_cons, ofDigits_reverse_cons_cons] at hm
        have hnext : acc * 10 + k.val < UInt64.size :=
          lt_of_le_of_lt (hm ▸ le_ofDigits_reverse_cons ..) hfits
        rw [digitValue?_digitChar k.val k.isLt]
        dsimp only
        rw [if_pos hnext]
        exact (ih hnext).mpr ⟨ds, rfl, hm, hfits⟩

theorem magnitude_eq_ok_iff {cs : List Char} {m : Nat} :
    magnitude cs = .ok m
      ↔ ∃ ds : List (Fin 10), ds ≠ [] ∧ cs = ds.map (fun d => Nat.digitChar d.val)
        ∧ m = Nat.ofDigits 10 (ds.map Fin.val).reverse ∧ m < UInt64.size := by
  cases cs with
  | nil =>
    constructor
    · intro h
      cases h
    · rintro ⟨ds, hne, hds, -⟩
      exact absurd (List.map_eq_nil_iff.mp hds.symm) hne
  | cons c cs =>
    show magnitudeFrom 0 (c :: cs) = .ok m ↔ _
    rw [magnitudeFrom_eq_ok_iff (by decide)]
    simp only [Nat.ofDigits_reverse_zero_cons]
    constructor
    · rintro ⟨ds, hds, hm⟩
      refine ⟨ds, ?_, hds, hm⟩
      rintro rfl
      cases hds
    · rintro ⟨ds, -, hds, hm⟩
      exact ⟨ds, hds, hm⟩

/-! ## Signs -/

/-- A number gets its sign if it still fits. -/
theorem signed_eq_ok_iff {negative : Bool} {m : Nat} {v : Int64} :
    signed negative m = .ok v ↔ (if negative = true then -(m : Int) else m) = v.toInt := by
  have hlo : -9223372036854775808 ≤ v.toInt := v.le_toInt
  have hhi : v.toInt < 9223372036854775808 := v.toInt_lt
  have hsize : signedSize = 9223372036854775808 := rfl
  have hread : ∀ z : Int, -9223372036854775808 ≤ z → z < 9223372036854775808 →
      (Int64.ofInt z = v ↔ z = v.toInt) := by
    intro z hz hz'
    rw [← Int64.toInt_inj, Int64.toInt_ofInt_of_le hz hz']
  unfold signed
  cases negative with
  | true =>
    simp only [if_true]
    split
    · rw [Except.ok.injEq]
      exact hread _ (by omega) (by omega)
    · simp only [reduceCtorEq, false_iff]
      omega
  | false =>
    simp only [Bool.false_eq_true, if_false]
    split
    · rw [Except.ok.injEq]
      exact hread _ (by omega) (by omega)
    · simp only [reduceCtorEq, false_iff]
      omega

/-- What stands before the digits is a sign. -/
theorem exists_sign (cs : List Char) :
    ∃ s : Sign, cs = s.chars ++ (splitSign cs).2 ∧ (splitSign cs).1 = decide (s = .minus) := by
  rw [splitSign.eq_def]
  split
  · exact ⟨.minus, rfl, rfl⟩
  · exact ⟨.plus, rfl, rfl⟩
  · exact ⟨.blank, rfl, rfl⟩

theorem splitSign_append (s : Sign) {cs : List Char}
    (hcs : ∀ c ∈ cs.head?, c.isDigit = true) :
    splitSign (s.chars ++ cs) = (decide (s = .minus), cs) := by
  cases s with
  | plus => rfl
  | minus => rfl
  | blank =>
    show splitSign cs = (false, cs)
    rw [splitSign.eq_def]
    split
    · exact absurd (hcs '-' rfl) (by decide)
    · exact absurd (hcs '+' rfl) (by decide)
    · rfl

namespace Numeral

theorem toList_text (n : Numeral) : n.text.toList = n.sign.chars ++ n.figures :=
  String.toList_ofList

theorem isDigit_of_mem_figures {n : Numeral} {c : Char} (hc : c ∈ n.figures) : c.isDigit = true := by
  have hdigit : ∀ d : Fin 10, (Nat.digitChar d.val).isDigit = true := by decide
  obtain ⟨d, -, rfl⟩ := List.mem_map.mp hc
  exact hdigit d

theorem underscore_notMem_text (n : Numeral) : '_' ∉ n.text.toList := by
  rw [toList_text, List.mem_append]
  rintro (hsign | hfigure)
  · revert hsign
    cases n.sign <;> decide
  · exact absurd (isDigit_of_mem_figures hfigure) (by decide)

theorem splitSign_text (n : Numeral) :
    splitSign n.text.toList = (decide (n.sign = .minus), n.figures) := by
  rw [toList_text]
  exact splitSign_append n.sign fun c hc => isDigit_of_mem_figures (List.mem_of_mem_head? hc)

/-- A text denotes one number. -/
theorem value_eq_of_text_eq {n n' : Numeral} (h : n.text = n'.text) : n.value = n'.value := by
  have hdigit : ∀ d d' : Fin 10, Nat.digitChar d.val = Nat.digitChar d'.val → d = d' := by decide
  have hsplit := n.splitSign_text
  rw [h, n'.splitSign_text] at hsplit
  obtain ⟨hminus, hfigures⟩ := Prod.mk.inj hsplit
  have hdigits : n'.digits = n.digits := (List.map_inj_right hdigit).mp hfigures
  simp only [value, magnitude, hdigits, decide_eq_decide.mp hminus]

theorem fits_iff {n : Numeral} : n.Fits ↔ ∃ v : Int64, n.value = v.toInt := by
  constructor
  · rintro ⟨hlo, hhi⟩
    exact ⟨Int64.ofInt n.value, (Int64.toInt_ofInt_of_le hlo (Int.lt_of_le_sub_one hhi)).symm⟩
  · rintro ⟨v, hv⟩
    have hlo : -9223372036854775808 ≤ v.toInt := v.le_toInt
    have hhi : v.toInt < 9223372036854775808 := v.toInt_lt
    exact ⟨by omega, by omega⟩

end Numeral

/-- Reading accepts the numerals whose value fits 64 bits, and gives this value. -/
theorem readInteger_eq_ok_iff {cs : List Char} {v : Int64} :
    readInteger cs = .ok v ↔ ∃ n : Numeral, cs = n.text.toList ∧ n.value = v.toInt := by
  constructor
  · intro h
    obtain ⟨s, hcs, hminus⟩ := exists_sign cs
    rw [readInteger] at h
    cases hm : magnitude (splitSign cs).2 with
    | error e =>
      simp only [hm] at h
      cases h
    | ok m =>
      simp only [hm] at h
      obtain ⟨ds, hne, hds, rfl, -⟩ := magnitude_eq_ok_iff.mp hm
      refine ⟨⟨s, ds, hne⟩, ?_, ?_⟩
      · rw [Numeral.toList_text, hcs, hds]
        rfl
      · rw [signed_eq_ok_iff, hminus] at h
        simp only [decide_eq_true_eq] at h
        exact h
  · rintro ⟨n, rfl, hv⟩
    have hlo : -9223372036854775808 ≤ v.toInt := v.le_toInt
    have hhi : v.toInt < 9223372036854775808 := v.toInt_lt
    have hsmall : n.magnitude < UInt64.size := by
      show n.magnitude < 18446744073709551616
      rw [Numeral.value] at hv
      split at hv <;> omega
    have hm : magnitude n.figures = .ok n.magnitude :=
      magnitude_eq_ok_iff.mpr ⟨n.digits, n.digits_ne_nil, rfl, rfl, hsmall⟩
    rw [readInteger, n.splitSign_text]
    simp only [hm]
    rw [signed_eq_ok_iff]
    simp only [decide_eq_true_eq]
    exact hv

/-! ## Plain numerals -/

/-- Digits behind a number that is not zero are its further digits. -/
theorem toDigits_append_figures (ds : List (Fin 10)) {acc : Nat} (hacc : 0 < acc) :
    Nat.toDigits 10 acc ++ ds.map (fun d => Nat.digitChar d.val)
      = Nat.toDigits 10 (Nat.ofDigits 10 (acc :: ds.map Fin.val).reverse) := by
  induction ds generalizing acc with
  | nil => simp
  | cons d ds ih =>
    have hdigit : Nat.toDigits 10 acc ++ [Nat.digitChar d.val] = Nat.toDigits 10 (acc * 10 + d.val) := by
      rw [← Nat.toDigits_of_lt_base d.isLt, Nat.toDigits_append_toDigits (by decide) hacc d.isLt,
        Nat.mul_comm]
    rw [List.map_cons, List.map_cons, ofDigits_reverse_cons_cons, ← ih (by omega), ← hdigit,
      List.append_assoc, List.singleton_append]

/-- Only zero is written with a zero in front. -/
theorem eq_zero_of_head_toDigits {m : Nat} (h : (Nat.toDigits 10 m).head? = some '0') : m = 0 := by
  induction m using Nat.strongRecOn with
  | ind m ih =>
    by_cases hlt : m < 10
    · rw [Nat.toDigits_of_lt_base hlt] at h
      have hvalue := digitValue?_digitChar m hlt
      rw [Option.some.inj h] at hvalue
      exact (Option.some.inj hvalue).symm
    · have hne : Nat.toDigits 10 (m / 10) ≠ [] := Nat.toDigits_ne_nil
      obtain ⟨c, cs, hcs⟩ := List.exists_cons_of_ne_nil hne
      rw [Nat.toDigits_of_base_le (by decide) (by omega), hcs, List.cons_append] at h
      have hdiv := ih (m / 10) (by omega) (by rw [hcs]; exact h)
      omega

namespace Numeral

/-- The digits are those that the magnitude is written with, unless one can be left out. -/
theorem figures_eq_toDigits_iff (n : Numeral) :
    n.figures = Nat.toDigits 10 n.magnitude
      ↔ (n.digits.head n.digits_ne_nil = 0 → n.digits.length = 1) := by
  obtain ⟨sign, digits, hne⟩ := n
  cases digits with
  | nil => exact absurd rfl hne
  | cons d ds =>
    simp only [figures, magnitude, List.head_cons]
    by_cases hd : d = 0
    · subst hd
      constructor
      · intro h _
        -- A zero in front is all there is.
        have hzero := eq_zero_of_head_toDigits ((congrArg List.head? h).symm.trans rfl)
        rw [hzero] at h
        simpa using congrArg List.length h
      · intro h
        obtain rfl := List.length_eq_zero_iff.mp (Nat.succ.inj (h rfl))
        rfl
    · have hpos : 0 < d.val := Nat.pos_of_ne_zero fun h => hd (Fin.ext h)
      refine ⟨fun _ h => absurd h hd, fun _ => ?_⟩
      rw [List.map_cons, List.map_cons, ← toDigits_append_figures ds hpos,
        Nat.toDigits_of_lt_base d.isLt, List.singleton_append]

/-- A numeral is what its value is written as if and only if it is plain. -/
theorem text_eq_integer_iff {n : Numeral} {v : Int64} (hv : n.value = v.toInt) :
    n.text = integer v ↔ n.Plain := by
  have hfigures := n.figures_eq_toDigits_iff
  have hplain : n.Plain ↔ n.sign ≠ .plus ∧ n.figures = Nat.toDigits 10 n.magnitude
      ∧ (n.magnitude = 0 → n.sign ≠ .minus) := by
    rw [hfigures]
    exact ⟨fun h => ⟨h.no_plus, h.no_zeros, h.no_minus⟩, fun h => ⟨h.1, h.2.1, h.2.2⟩⟩
  have hminus : '-' ∉ Nat.toDigits 10 n.magnitude :=
    fun hc => absurd (isDigit_of_mem_toDigits hc) (by decide)
  have hplus : '+' ∉ Nat.toDigits 10 n.magnitude :=
    fun hc => absurd (isDigit_of_mem_toDigits hc) (by decide)
  rw [hplain, ← String.toList_inj, toList_text, toList_integer, ← hv]
  have habs : n.value.natAbs = n.magnitude := by
    rw [value]
    split <;> omega
  rw [habs]
  cases hsign : n.sign with
  | blank =>
    have hneg : ¬n.value < 0 := by
      rw [value, hsign]
      simp
    rw [if_neg hneg]
    simp [Sign.chars]
  | plus =>
    simp only [Sign.chars, List.singleton_append, ne_eq, not_true_eq_false, false_and, iff_false]
    intro h
    split at h
    · exact absurd (List.cons.inj h).1 (by decide)
    · exact hplus (h ▸ List.mem_cons_self)
  | minus =>
    have hvalue : n.value = -(n.magnitude : Int) := by rw [value, if_pos hsign]
    simp only [Sign.chars, List.singleton_append, hvalue, ne_eq, reduceCtorEq, not_false_eq_true,
      true_and, not_true_eq_false, imp_false]
    split
    · rename_i hneg
      have hne : n.magnitude ≠ 0 := by omega
      simp [hne]
    · rename_i hneg
      have hzero : n.magnitude = 0 := by omega
      refine ⟨fun h => absurd (h ▸ List.mem_cons_self) hminus, fun h => absurd hzero h.2⟩

end Numeral

end Text

/-! ## Names -/

namespace Save.EntryName

open Text (Numeral)

/-- The name that is made of three numerals. -/
def named (x y z : Numeral) : String :=
  "megachunk_" ++ x.text ++ "_" ++ y.text ++ "_" ++ z.text ++ ".bin"

theorem number?_eq_some_iff {cs : List Char} {v : Int64} :
    number? cs = some v ↔ ∃ n : Numeral, cs = n.text.toList ∧ n.value = v.toInt := by
  rw [number?, ← Text.readInteger_eq_ok_iff]
  cases Text.readInteger cs <;> simp [Except.toOption]

theorem number?_text {n : Numeral} {v : Int64} :
    number? n.text.toList = some v ↔ n.value = v.toInt := by
  rw [number?_eq_some_iff]
  constructor
  · rintro ⟨n', htext, hv⟩
    rw [Numeral.value_eq_of_text_eq (String.toList_inj.mp htext), hv]
  · intro hv
    exact ⟨n, rfl, hv⟩

theorem middle?_eq_some_iff {cs middle : List Char} :
    middle? cs = some middle ↔ cs = head ++ middle ++ tail := by
  constructor
  · intro h
    unfold middle? at h
    split at h
    · rename_i hfits
      simp only [Bool.and_eq_true, List.isPrefixOf_iff_prefix, List.isSuffixOf_iff_suffix,
        decide_eq_true_eq] at hfits
      obtain ⟨⟨⟨rest, rfl⟩, hsuffix⟩, hlength⟩ := hfits
      obtain rfl := Option.some.inj h
      -- The fixed end lies behind the fixed start, as there is room for both.
      have htail : tail <:+ rest := by
        refine List.suffix_of_suffix_length_le hsuffix (List.suffix_append head rest) ?_
        rw [List.length_append] at hlength
        omega
      obtain ⟨body, rfl⟩ := htail
      have hcount : (head ++ (body ++ tail)).length - head.length - tail.length = body.length := by
        simp only [List.length_append]
        omega
      rw [hcount, List.drop_left, List.take_left, List.append_assoc]
    · cases h
  · rintro rfl
    exact middle?_append middle

theorem toList_named (x y z : Numeral) :
    (named x y z).toList
      = head ++ ['_'].intercalate [x.text.toList, y.text.toList, z.text.toList] ++ tail :=
  toList_joined "megachunk_" ".bin" _ _ _

theorem splitOn_numerals (x y z : Numeral) :
    (['_'].intercalate [x.text.toList, y.text.toList, z.text.toList]).splitOn '_'
      = [x.text.toList, y.text.toList, z.text.toList] :=
  List.splitOn_intercalate '_' (by simp [Numeral.underscore_notMem_text]) (by simp)

/-- A name made of numerals is read by reading the numerals. -/
theorem parse?_named {x y z : Numeral} {c : Coord} :
    parse? (named x y z) = some c
      ↔ x.value = c.x.toInt ∧ y.value = c.y.toInt ∧ z.value = c.z.toInt := by
  unfold parse?
  rw [toList_named, middle?_append, Option.bind_eq_bind, Option.bind_some, splitOn_numerals]
  simp only [Option.bind_eq_bind, Option.bind_eq_some_iff, number?_text, Option.some.injEq]
  constructor
  · rintro ⟨x', hx, y', hy, z', hz, rfl⟩
    exact ⟨hx, hy, hz⟩
  · rintro ⟨hx, hy, hz⟩
    exact ⟨c.x, hx, c.y, hy, c.z, hz, rfl⟩

/-- Only names that are made of numerals stand for megachunks. -/
theorem exists_numerals_of_parse? {name : String} {c : Coord} (h : parse? name = some c) :
    ∃ x y z : Numeral, name = named x y z := by
  unfold parse? at h
  obtain ⟨middle, hmiddle, h⟩ := Option.bind_eq_some_iff.mp h
  have hname := middle?_eq_some_iff.mp hmiddle
  split at h
  · rename_i cx cy cz hsplit
    obtain ⟨vx, hx, h⟩ := Option.bind_eq_some_iff.mp h
    obtain ⟨vy, hy, h⟩ := Option.bind_eq_some_iff.mp h
    obtain ⟨vz, hz, -⟩ := Option.bind_eq_some_iff.mp h
    obtain ⟨x, rfl, -⟩ := number?_eq_some_iff.mp hx
    obtain ⟨y, rfl, -⟩ := number?_eq_some_iff.mp hy
    obtain ⟨z, rfl, -⟩ := number?_eq_some_iff.mp hz
    refine ⟨x, y, z, String.toList_inj.mp ?_⟩
    rw [hname, toList_named, ← hsplit, List.intercalate_splitOn]
  · cases h

theorem exists_coord_iff {x y z : Numeral} :
    (∃ c, parse? (named x y z) = some c) ↔ x.Fits ∧ y.Fits ∧ z.Fits := by
  simp only [parse?_named]
  constructor
  · rintro ⟨c, hx, hy, hz⟩
    exact ⟨Numeral.fits_iff.mpr ⟨c.x, hx⟩, Numeral.fits_iff.mpr ⟨c.y, hy⟩,
      Numeral.fits_iff.mpr ⟨c.z, hz⟩⟩
  · rintro ⟨hx, hy, hz⟩
    obtain ⟨vx, hx⟩ := Numeral.fits_iff.mp hx
    obtain ⟨vy, hy⟩ := Numeral.fits_iff.mp hy
    obtain ⟨vz, hz⟩ := Numeral.fits_iff.mp hz
    exact ⟨⟨vx, vy, vz⟩, hx, hy, hz⟩

/-- A name made of numerals is the name of a megachunk if the numerals are its numbers. -/
theorem named_eq_ofCoord_iff {x y z : Numeral} {c : Coord} :
    named x y z = ofCoord c
      ↔ x.text = Text.integer c.x ∧ y.text = Text.integer c.y ∧ z.text = Text.integer c.z := by
  constructor
  · intro h
    have hlists := congrArg String.toList h
    rw [toList_named, toList_ofCoord, List.append_left_inj, List.append_right_inj] at hlists
    have hparts := congrArg (List.splitOn '_') hlists
    rw [splitOn_numerals, splitOn_integers] at hparts
    simpa only [List.cons.injEq, String.toList_inj, and_true] using hparts
  · rintro ⟨hx, hy, hz⟩
    exact String.toList_inj.mp (by rw [toList_named, toList_ofCoord, hx, hy, hz])

/-- Every megachunk is read back from its name, so no two have the same. A name stands for a megachunk
if and only if it is made of three numerals with values of 64 bits, which are the numbers of the
megachunk then. Such a name is the one that the megachunk is saved under if and only if none of the
three numerals has a plus sign, a zero that could be left out, or a minus sign before zero. -/
theorem name_grammar :
    (∀ c, parse? (ofCoord c) = some c) ∧ Function.Injective ofCoord
      ∧ (∀ name, (∃ c, parse? name = some c) ↔
        ∃ x y z : Numeral, name = named x y z ∧ x.Fits ∧ y.Fits ∧ z.Fits)
      ∧ ∀ (x y z : Numeral) (c : Coord), parse? (named x y z) = some c →
        (x.value = c.x.toInt ∧ y.value = c.y.toInt ∧ z.value = c.z.toInt)
          ∧ (named x y z = ofCoord c ↔ x.Plain ∧ y.Plain ∧ z.Plain) := by
  refine ⟨parse?_ofCoord, fun _ _ => ofCoord_injective, fun name => ⟨?_, ?_⟩, fun x y z c h => ?_⟩
  · rintro ⟨c, h⟩
    obtain ⟨x, y, z, rfl⟩ := exists_numerals_of_parse? h
    exact ⟨x, y, z, rfl, exists_coord_iff.mp ⟨c, h⟩⟩
  · rintro ⟨x, y, z, rfl, hfits⟩
    exact exists_coord_iff.mpr hfits
  · obtain ⟨hx, hy, hz⟩ := parse?_named.mp h
    refine ⟨⟨hx, hy, hz⟩, ?_⟩
    rw [named_eq_ofCoord_iff, Numeral.text_eq_integer_iff hx, Numeral.text_eq_integer_iff hy,
      Numeral.text_eq_integer_iff hz]

/-- The least number, a plus sign and a zero too many: the name is read, but nothing is saved under
it. -/
theorem name_grammar_least :
    let x : Numeral := ⟨.minus, [9, 2, 2, 3, 3, 7, 2, 0, 3, 6, 8, 5, 4, 7, 7, 5, 8, 0, 8], by decide⟩
    let y : Numeral := ⟨.plus, [7], by decide⟩
    let z : Numeral := ⟨.blank, [0, 0], by decide⟩
    named x y z = "megachunk_-9223372036854775808_+7_00.bin"
      ∧ parse? (named x y z) = some ⟨Int64.minValue, 7, 0⟩
      ∧ named x y z ≠ ofCoord ⟨Int64.minValue, 7, 0⟩ := by
  intro x y z
  have hread : parse? (named x y z) = some ⟨Int64.minValue, 7, 0⟩ := by decide +kernel
  have hplain := (name_grammar.2.2.2 x y z _ hread).2
  refine ⟨by decide +kernel, hread, fun h => ?_⟩
  exact (hplain.mp h).2.1.no_plus rfl

end Save.EntryName

end BlockWorld
