import Mathlib
/-!
Numbers of single precision as whole numbers. Every finite number from zero up is a multiple of the
smallest positive one, 2 ^ -149. Counted in these steps (`ticks?`), numbers are ordered as whole
numbers are (`le_iff_of_ticks?`), 256 times a number below one is exact (`ticks?_mul_256`), and
cutting off what is behind the point is a division (`toNat_toUInt64_of_ticks?`).

How the proof goes. A number is unpacked into a mantissa and an exponent, in canonical form
(`canonical_of_unpack`): the mantissa has its full length unless the exponent is the least one. In this form
comparing exponents first and then mantissas is comparing the products (`compare_ticks`), since a larger
exponent comes with a full mantissa (`ticks_lt_of_lt`). The product with 256 needs no more bits than there
are, so rounding it only shifts zeros out (`roundWithAccuracy_exact`, `canonical_mul_256`), and packing and
unpacking it again gives it back (`unpack_pack`).

The last part is about what is not a number. Packing never makes such a thing (`notANumber_of_unpack_pack`),
so sums and quotients are numbers but for the cases that the definitions list (`isNaN_of_add`,
`isNaN_of_div`).
-/
namespace BlockWorld.Number

open Float.Model Float.Model.UnpackedFloat

/-! ## Canonical form -/

/-- A mantissa and an exponent as they are unpacked: all bits of the mantissa are used, unless the
exponent is the least one. -/
structure Canonical (m : Nat) (e : Int) : Prop where
  pos : 0 < m
  short : m < 2 ^ 24
  least : -149 ≤ e
  full : e = -149 ∨ 2 ^ 23 ≤ m

/-- The first bit of a mantissa of full length is not stored. -/
theorem toNat_one_append (v : BitVec 23) : (1#1 ++ v).toNat = 2 ^ 23 + v.toNat := by
  rw [BitVec.toNat_append, ← Nat.shiftLeft_add_eq_or_of_lt v.isLt]
  simp

theorem canonical_of_unpack {bits : BitVec Format.binary32.numBits} {s : Sign} {m : Nat} {e : Int}
    {hm : 0 < m} (h : UnpackedFloat.unpack Format.binary32 bits = .finite s m e hm) :
    Canonical m e := by
  have hstored := (unpackMantissa bits).isLt
  simp only at hstored
  unfold UnpackedFloat.unpack at h
  simp only [Format.exponentBias] at h
  split at h
  · split at h <;> cases h
  · split at h
    · rename_i hzero
      split at h
      · cases h
      · injection h with _ hmantissa hexponent
        simp [hzero] at hexponent
        refine ⟨hm, ?_, ?_, ?_⟩ <;> omega
    · rename_i hzero
      injection h with _ hmantissa hexponent
      have happend := toNat_one_append (unpackMantissa bits)
      have hpos : (unpackExponent bits).toNat ≠ 0 := fun h0 => hzero (BitVec.eq_of_toNat_eq h0)
      simp at hexponent
      refine ⟨hm, ?_, ?_, ?_⟩ <;> omega

/-! ## Ticks -/

/-- A number in steps of 2 ^ -149. -/
def ticks (m : Nat) (e : Int) : Nat := m * 2 ^ (e + 149).toNat

theorem ticks_pos {m : Nat} {e : Int} (hm : 0 < m) : 0 < ticks m e :=
  Nat.mul_pos hm (Nat.two_pow_pos _)

/-- A larger exponent makes a larger number, since the mantissa with it is of full length. -/
theorem ticks_lt_of_lt {m n : Nat} {e f : Int} (hm : Canonical m e) (hn : Canonical n f)
    (h : e < f) : ticks m e < ticks n f := by
  have hfull : 2 ^ 23 ≤ n := by
    have hleast := hm.least
    rcases hn.full with hf | hn
    · omega
    · exact hn
  calc m * 2 ^ (e + 149).toNat
      < 2 ^ 24 * 2 ^ (e + 149).toNat := Nat.mul_lt_mul_of_pos_right hm.short (Nat.two_pow_pos _)
    _ = 2 ^ 23 * 2 ^ ((e + 149).toNat + 1) := by ring
    _ ≤ 2 ^ 23 * 2 ^ (f + 149).toNat := by
        have hleast := hm.least
        gcongr
        · norm_num
        · omega
    _ ≤ n * 2 ^ (f + 149).toNat := Nat.mul_le_mul_right _ hfull

/-- Exponents are compared first, then mantissas; that is the order of the numbers. -/
theorem compare_ticks {m n : Nat} {e f : Int} (hm : Canonical m e) (hn : Canonical n f) :
    (compare e f).then (compare m n) = compare (ticks m e) (ticks n f) := by
  rcases lt_trichotomy e f with h | rfl | h
  · rw [compare_lt_iff_lt.mpr h, compare_lt_iff_lt.mpr (ticks_lt_of_lt hm hn h)]
    rfl
  · have hcompare : compare e e = .eq := compare_eq_iff_eq.mpr rfl
    rw [hcompare, Ordering.eq_then, ticks, ticks, ← cmp_eq_compare, ← cmp_eq_compare,
      cmp_mul_pos_right (Nat.two_pow_pos _)]
  · rw [compare_gt_iff_gt.mpr h, compare_gt_iff_gt.mpr (ticks_lt_of_lt hn hm h)]
    rfl

/-- A finite number from zero up in steps of 2 ^ -149. -/
def ticks? (x : Float32) : Option Nat :=
  match x.toModel.unpack with
  | .zero _ => some 0
  | .finite .positive m e _ => some (ticks m e)
  | _ => none

theorem ticks?_eq_some {x : Float32} {t : Nat} (h : ticks? x = some t) :
    (∃ s, x.toModel.unpack = .zero s ∧ t = 0)
      ∨ ∃ m e hm, x.toModel.unpack = .finite .positive m e hm ∧ Canonical m e ∧ t = ticks m e := by
  unfold ticks? at h
  split at h
  · rename_i s hx
    exact .inl ⟨s, hx, (Option.some.inj h).symm⟩
  · rename_i m e hm hx
    exact .inr ⟨m, e, hm, hx, canonical_of_unpack hx, (Option.some.inj h).symm⟩
  · cases h

/-! ## Order -/

theorem compare_of_ticks? {x y : Float32} {s t : Nat} (hx : ticks? x = some s)
    (hy : ticks? y = some t) : x.toModel.compare y.toModel = some (compare s t) := by
  unfold Float32.Model.compare
  rcases ticks?_eq_some hx with ⟨a, hax, rfl⟩ | ⟨m, e, hm, hmx, hcx, rfl⟩
  · rcases ticks?_eq_some hy with ⟨b, hby, rfl⟩ | ⟨n, f, hn, hny, -, rfl⟩
    · rw [hax, hby]
      rfl
    · rw [hax, hny, compare_lt_iff_lt.mpr (ticks_pos hn)]
      rfl
  · rcases ticks?_eq_some hy with ⟨b, hby, rfl⟩ | ⟨n, f, hn, hny, hcy, rfl⟩
    · rw [hmx, hby, compare_gt_iff_gt.mpr (ticks_pos hm)]
      rfl
    · rw [hmx, hny, ← compare_ticks hcx hcy]
      rfl

/-- The order of numbers is the outcome of their comparison. -/
theorem le_iff_compare (x y : Float32) :
    x ≤ y ↔ (x.toModel.compare y.toModel).any (·.isLE) = true :=
  decide_eq_true_iff

theorem lt_iff_compare (x y : Float32) :
    x < y ↔ x.toModel.compare y.toModel = some .lt :=
  decide_eq_true_iff.trans beq_iff_eq

theorem le_iff_of_ticks? {x y : Float32} {s t : Nat} (hx : ticks? x = some s)
    (hy : ticks? y = some t) : x ≤ y ↔ s ≤ t := by
  simp [le_iff_compare, compare_of_ticks? hx hy, Nat.isLE_compare]

theorem lt_iff_of_ticks? {x y : Float32} {s t : Nat} (hx : ticks? x = some s)
    (hy : ticks? y = some t) : x < y ↔ s < t := by
  simp [lt_iff_compare, compare_of_ticks? hx hy, compare_lt_iff_lt]

theorem single_le_of_lt {x y : Float32} (h : x < y) : x ≤ y := by
  rw [lt_iff_compare] at h
  simp [le_iff_compare, h]

theorem ticks?_zero : ticks? 0 = some 0 := by decide +kernel

theorem ticks?_one : ticks? 1 = some (2 ^ 149) := by decide +kernel

/-- Numbers that are neither below zero nor from one up, and what is not a number at all. -/
theorem ticks?_of_range {x : Float32} (h0 : ¬ x < 0) (h1 : ¬ 1 ≤ x) :
    x.toModel.unpack = .notANumber ∨ ∃ t, ticks? x = some t ∧ t < 2 ^ 149 := by
  have hzero : (0 : Float32).toModel.unpack = .zero .positive := rfl
  have hone : (1 : Float32).toModel.unpack = .finite .positive (2 ^ 23) (-23) (by decide) := rfl
  have hbelow : ∀ t, ticks? x = some t → t < 2 ^ 149 := by
    intro t ht
    rwa [le_iff_of_ticks? ticks?_one ht, not_le] at h1
  rw [lt_iff_compare, Float32.Model.compare, hzero] at h0
  rw [le_iff_compare, Float32.Model.compare, hone] at h1
  cases hx : x.toModel.unpack with
  | notANumber => exact .inl rfl
  | infinity s =>
    rw [hx] at h0 h1
    cases s with
    | negative => exact absurd rfl h0
    | positive => exact absurd rfl h1
  | zero s =>
    have ht : ticks? x = some 0 := by rw [ticks?, hx]
    exact .inr ⟨0, ht, hbelow 0 ht⟩
  | finite s m e hm =>
    rw [hx] at h0
    cases s with
    | negative => exact absurd rfl h0
    | positive =>
      have ht : ticks? x = some (ticks m e) := by rw [ticks?, hx]
      exact .inr ⟨_, ht, hbelow _ ht⟩

/-! ## Packing -/

/-- The sign is read back; mantissa and exponent are so too. -/
theorem ofBitVec_unpackSign {spec : Format} (s : Sign) (exponent : BitVec spec.exponentBits)
    (mantissa : BitVec spec.mantissaBitsWithoutImplicit) :
    Sign.ofBitVec (unpackSign (packComponents spec s exponent mantissa)) = s := by
  have hbit : unpackSign (packComponents spec s exponent mantissa) = s.toBitVec := by
    ext i hi
    obtain rfl : i = 0 := by omega
    simp [unpackSign, packComponents, BitVec.getLsbD_append, BitVec.getElem_append]
  rw [hbit]
  cases s <;> rfl

theorem finite_congr {s : Sign} {m n : Nat} {e f : Int} (hm : 0 < m) (hn : 0 < n) (h : m = n)
    (h' : e = f) : UnpackedFloat.finite s m e hm = .finite s n f hn := by
  subst h h'
  rfl

/-- A mantissa of full length is stored without its first bit. -/
theorem unpack_full (s : Sign) {m b : Nat} (hm : 2 ^ 23 ≤ m) (hm' : m < 2 ^ 24) (hb : 0 < b)
    (hb' : b < 255) :
    UnpackedFloat.unpack Format.binary32
        (packComponents Format.binary32 s (BitVec.ofNat 8 b) (BitVec.ofNat 23 m))
      = .finite s m (b - 150) (Nat.lt_of_lt_of_le (by decide) hm) := by
  have hexponent : (BitVec.ofNat 8 b).toNat = b := by
    rw [BitVec.toNat_ofNat]
    omega
  have hmost : BitVec.ofNat 8 b ≠ -1#8 := by
    intro hmost
    simp [hmost] at hexponent
    omega
  have hzero : BitVec.ofNat 8 b ≠ 0#8 := by
    intro hzero
    simp [hzero] at hexponent
    omega
  unfold UnpackedFloat.unpack
  simp only [unpackExponent_packComponents, unpackMantissa_packComponents, ofBitVec_unpackSign,
    hmost, hzero, if_false]
  refine finite_congr _ _ ?_ ?_
  · rw [toNat_one_append, BitVec.toNat_ofNat]
    omega
  · rw [hexponent]
    rfl

/-- A shorter one has no exponent stored with it. -/
theorem unpack_short (s : Sign) {m : Nat} (hm : 0 < m) (hm' : m < 2 ^ 23) :
    UnpackedFloat.unpack Format.binary32
        (packComponents Format.binary32 s 0#8 (BitVec.ofNat 23 m)) = .finite s m (-149) hm := by
  have hstored : (BitVec.ofNat 23 m).toNat = m := by
    rw [BitVec.toNat_ofNat]
    omega
  have hmost : 0#8 ≠ -1#8 := by decide
  have hzero : BitVec.ofNat 23 m ≠ 0#23 := by
    intro hzero
    simp [hzero] at hstored
    omega
  unfold UnpackedFloat.unpack
  simp only [unpackExponent_packComponents, unpackMantissa_packComponents, ofBitVec_unpackSign,
    hmost, hzero, if_true, if_false, dite_false]
  exact finite_congr _ _ hstored rfl

/-- Nothing is lost when a number in canonical form is packed, unless it is too large. -/
theorem unpack_pack {s : Sign} {m : Nat} {e : Int} (h : Canonical m e) (he : e ≤ 104) :
    (Float32.Model.pack (.finite s m e h.pos)).unpack = .finite s m e h.pos := by
  obtain ⟨hpos, hshort, hleast, hfull⟩ := h
  have hbias : Format.binary32.exponentBias = 127 := rfl
  have hbits : Format.binary32.mantissaBits = 24 := rfl
  change UnpackedFloat.unpack Format.binary32 (UnpackedFloat.pack Format.binary32 _) = _
  unfold UnpackedFloat.pack
  simp only [hbias, hbits]
  rw [if_neg (by omega)]
  by_cases hm : 2 ^ 23 ≤ m
  · have hlog : m.log2 = 23 := (Nat.log2_eq_iff hpos.ne').mpr ⟨hm, hshort⟩
    rw [if_pos (by omega), unpack_full s hm hshort (by omega) (by omega)]
    exact finite_congr _ _ rfl (by omega)
  · have hlog : m.log2 < 23 := (Nat.log2_lt hpos.ne').mpr (by omega)
    rw [if_neg (by omega), unpack_short s hpos (by omega)]
    exact finite_congr _ _ rfl (by omega)

/-! ## Rounding -/

/-- Shifting out zeros loses nothing. -/
theorem shiftRight_mul_two_pow (m n : Nat) :
    (⟨m * 2 ^ n, false, false⟩ : ExtendedMantissa) >>> n = ⟨m, false, false⟩ := by
  induction n generalizing m with
  | zero =>
    rw [pow_zero, mul_one]
    rfl
  | succ n ih =>
    have hstep : (⟨m * 2 ^ (n + 1), false, false⟩ : ExtendedMantissa) >>> (n + 1)
        = ((⟨m * 2 * 2 ^ n, false, false⟩ : ExtendedMantissa) >>> n).shiftRightOne := by
      rw [pow_succ, mul_comm (2 ^ n) 2, ← mul_assoc]
      rfl
    rw [hstep, ih]
    simp [ExtendedMantissa.shiftRightOne]

theorem log2_mul_two_pow {m : Nat} (hm : 0 < m) (n : Nat) :
    (m * 2 ^ n).log2 = m.log2 + n := by
  obtain ⟨hle, hlt⟩ := (Nat.log2_eq_iff hm.ne').mp rfl
  rw [Nat.log2_eq_iff (Nat.mul_pos hm (Nat.two_pow_pos n)).ne']
  constructor
  · rw [pow_add]
    gcongr
  · rw [Nat.add_right_comm, pow_add]
    gcongr

theorem targetExponent_eq (t : Int) : Format.binary32.targetExponent t = max (t - 24) (-149) := rfl

/-- A number that needs no more bits than there are is only brought into canonical form. -/
theorem roundWithAccuracy_exact (s : Sign) {m n : Nat} {e : Int} (hm : 0 < m)
    (hn : Format.binary32.targetExponent (totalExponent (m * 2 ^ n) e) = e + n) :
    roundWithAccuracy Format.binary32 s (m * 2 ^ n) e .exact = .finite s m (e + n) hm := by
  have hfirst : shiftToTargetExponent Format.binary32 (m * 2 ^ n) e .exact
      = (⟨m, false, false⟩, e + n) := by
    rw [shiftToTargetExponent, shiftToExponent, hn, add_sub_cancel_left, Int.toNat_natCast]
    exact congrArg (·, e + (n : Int)) (shiftRight_mul_two_pow m n)
  have htotal : totalExponent m (e + n) = totalExponent (m * 2 ^ n) e := by
    rw [totalExponent, totalExponent, log2_mul_two_pow hm]
    push_cast
    ring
  have hsecond : shiftToTargetExponent Format.binary32 m (e + n) .exact
      = (⟨m, false, false⟩, e + n) := by
    rw [shiftToTargetExponent, shiftToExponent, htotal, hn, sub_self, Int.toNat_zero]
    simp
    rfl
  have hrounded : (⟨m, false, false⟩ : ExtendedMantissa).roundedMantissa = m := rfl
  rw [roundWithAccuracy, hfirst]
  simp only [hrounded, hsecond]
  rw [dif_neg hm.ne']

theorem ticks?_pack {m : Nat} {e : Int} (h : Canonical m e) (he : e ≤ 104) :
    ticks? ⟨.pack (.finite .positive m e h.pos)⟩ = some (ticks m e) := by
  rw [ticks?, unpack_pack h he]

/-- The product with 256 takes no more bits than there are. It is brought into canonical form by a
shift over the bits of the first factor, or as far as the least exponent. -/
theorem canonical_mul_256 {m : Nat} {e : Int} (h : Canonical m e) :
    ∃ n : Nat, n ≤ 23
      ∧ Format.binary32.targetExponent (totalExponent (m * 2 ^ 23) (e - 15)) = e - 15 + n
      ∧ Canonical (m * 2 ^ (23 - n)) (e - 15 + n) := by
  obtain ⟨hpos, hshort, hleast, hfull⟩ := h
  obtain ⟨hlow, hhigh⟩ := (Nat.log2_eq_iff hpos.ne').mp rfl
  have hbits : m.log2 < 24 := (Nat.log2_lt hpos.ne').mpr hshort
  have hlong : 2 ^ 23 ≤ m → 23 ≤ m.log2 := (Nat.le_log2 hpos.ne').mpr
  have htotal : totalExponent (m * 2 ^ 23) (e - 15) = m.log2 + e + 9 := by
    rw [totalExponent, log2_mul_two_pow hpos]
    push_cast
    ring
  obtain ⟨n, hn⟩ : ∃ n, n = max m.log2 (-134 - e).toNat := ⟨_, rfl⟩
  refine ⟨n, by omega, ?_, Nat.mul_pos hpos (Nat.two_pow_pos _), ?_, by omega, ?_⟩
  · rw [htotal, targetExponent_eq]
    omega
  · calc m * 2 ^ (23 - n)
        < 2 ^ (m.log2 + 1) * 2 ^ (23 - n) := Nat.mul_lt_mul_of_pos_right hhigh (Nat.two_pow_pos _)
      _ = 2 ^ (m.log2 + 1 + (23 - n)) := (pow_add ..).symm
      _ ≤ 2 ^ 24 := Nat.pow_le_pow_right (by decide) (by omega)
  · by_cases hshift : n = m.log2
    · right
      calc 2 ^ 23 = 2 ^ m.log2 * 2 ^ (23 - n) := by rw [← pow_add]; congr 1; omega
        _ ≤ m * 2 ^ (23 - n) := Nat.mul_le_mul_right _ hlow
    · left
      omega

/-- Numbers below one have negative exponents. -/
theorem exponent_neg_of_ticks_lt {m : Nat} {e : Int} (hm : 0 < m) (h : ticks m e < 2 ^ 149) :
    e < 0 := by
  have hpow : 2 ^ (e + 149).toNat < 2 ^ 149 := Nat.lt_of_le_of_lt (Nat.le_mul_of_pos_left _ hm) h
  have hlt := (Nat.pow_lt_pow_iff_right (by decide)).mp hpow
  omega

/-- 256 times a number below one is exact. -/
theorem ticks?_mul_256 {x : Float32} {t : Nat} (hx : ticks? x = some t) (ht : t < 2 ^ 149) :
    ticks? (x * 256) = some (t * 256) := by
  have h256 : (256 : Float32).toModel.unpack = .finite .positive (2 ^ 23) (-15) (by decide) := rfl
  have hmul : x * 256 = ⟨.pack (UnpackedFloat.mul Format.binary32 x.toModel.unpack
      (256 : Float32).toModel.unpack)⟩ := rfl
  rw [hmul, h256]
  rcases ticks?_eq_some hx with ⟨s, hzero, rfl⟩ | ⟨m, e, hm, hfinite, hc, rfl⟩
  · rw [hzero]
    cases s <;> rfl
  · obtain ⟨n, hn, htarget, hproduct⟩ := canonical_mul_256 hc
    have hsplit : m * 2 ^ 23 = m * 2 ^ (23 - n) * 2 ^ n := by
      rw [mul_assoc, ← pow_add, Nat.sub_add_cancel hn]
    have hround : UnpackedFloat.mul Format.binary32 (.finite .positive m e hm)
        (.finite .positive (2 ^ 23) (-15) (by decide))
          = .finite .positive (m * 2 ^ (23 - n)) (e - 15 + n) hproduct.pos := by
      rw [hsplit] at htarget
      have hexact := roundWithAccuracy_exact .positive hproduct.pos htarget
      rwa [← hsplit] at hexact
    have hbelow := exponent_neg_of_ticks_lt hm ht
    have hleast := hc.least
    have hleast' := hproduct.least
    rw [hfinite, hround, ticks?_pack hproduct (by omega)]
    have h8 : 256 = 2 ^ 8 := rfl
    rw [ticks, ticks, mul_assoc, mul_assoc, h8, ← pow_add, ← pow_add]
    congr 3
    omega

/-! ## Whole numbers -/

theorem mantissa_shiftRight (em : ExtendedMantissa) (n : Nat) :
    (em >>> n).mantissa = em.mantissa / 2 ^ n := by
  induction n with
  | zero =>
    rw [pow_zero, Nat.div_one]
    rfl
  | succ n ih =>
    rw [pow_succ, ← Nat.div_div_eq_div_mul, ← ih]
    rfl

/-- What is behind the point is cut off. -/
theorem roundToInt_positive {m : Nat} {e : Int} (he : -149 ≤ e) :
    roundToInt .positive m e = (ticks m e / 2 ^ 149 : Nat) := by
  simp only [roundToInt, decreaseExponent, shiftToExponent, mantissa_shiftRight, Sign.apply,
    ExtendedMantissa.ofMantissaAndAccuracy, ticks, Nat.shiftLeft_eq]
  congr 1
  by_cases hneg : e < 0
  · have hleft : (e - 0).toNat = 0 := by omega
    have hunit : 149 = (0 - (e - (0 : Nat))).toNat + (e + 149).toNat := by omega
    have hpow : 2 ^ 149 = 2 ^ (0 - (e - (0 : Nat))).toNat * 2 ^ (e + 149).toNat := by
      rw [← pow_add, ← hunit]
    rw [hleft, pow_zero, mul_one, hpow, Nat.mul_div_mul_right _ _ (Nat.two_pow_pos _)]
  · have hleft : (e + 149).toNat = (e - 0).toNat + 149 := by omega
    have hright : (0 - (e - ((e - 0).toNat : Nat))).toNat = 0 := by omega
    rw [hright, hleft, pow_zero, Nat.div_one, pow_add, ← mul_assoc,
      Nat.mul_div_cancel _ (Nat.two_pow_pos _)]

theorem toNat_toUInt64_of_ticks? {x : Float32} {t : Nat} (hx : ticks? x = some t)
    (ht : t / 2 ^ 149 < 2 ^ 64) : x.toUInt64.toNat = t / 2 ^ 149 := by
  have hclamp : x.toUInt64
      = UInt64.ofNatClamp (x.toModel.unpack.toInt 0 (UInt64.size - 1)).toNat := rfl
  have hint : x.toModel.unpack.toInt 0 (UInt64.size - 1) = (t / 2 ^ 149 : Nat) := by
    rcases ticks?_eq_some hx with ⟨s, hzero, rfl⟩ | ⟨m, e, hm, hfinite, hc, rfl⟩
    · rw [hzero]
      rfl
    · rw [hfinite, ← roundToInt_positive hc.least]
      rfl
  rw [hclamp, hint, Int.toNat_natCast, UInt64.toNat_ofNatClamp_of_lt ht]

/-! ## What is not a number -/

theorem isNaN_iff (x : Float32) : x.isNaN = true ↔ x.toModel.unpack = .notANumber := by
  change x.toModel.unpack.isNaN = true ↔ _
  cases x.toModel.unpack <;> simp [UnpackedFloat.isNaN]

theorem isInf_iff (x : Float32) : x.isInf = true ↔ ∃ s, x.toModel.unpack = .infinity s := by
  change x.toModel.unpack.isInf = true ↔ _
  cases x.toModel.unpack <;> simp [UnpackedFloat.isInf]

/-- A number is never packed as something that is none: the exponent of such bits is the largest, and a
number that would need it is packed as an infinity. -/
theorem notANumber_of_unpack_pack {f : UnpackedFloat}
    (h : (Float32.Model.pack f).unpack = .notANumber) : f = .notANumber := by
  change UnpackedFloat.unpack Format.binary32 (UnpackedFloat.pack Format.binary32 f) = _ at h
  cases f with
  | notANumber => rfl
  | infinity s => cases s <;> cases h
  | zero s => cases s <;> cases h
  | finite s m e hm =>
    have hunpacked : ∀ (b : Nat) (v : BitVec 23), b + 1 < 256 →
        UnpackedFloat.unpack Format.binary32
          (packComponents Format.binary32 s (BitVec.ofNat 8 b) v) ≠ .notANumber := by
      intro b v hb
      have hmost : BitVec.ofNat 8 b ≠ -1#8 := by
        intro hmost
        have hnat := congrArg BitVec.toNat hmost
        simp at hnat
        omega
      unfold UnpackedFloat.unpack
      simp only [unpackExponent_packComponents, unpackMantissa_packComponents, hmost, if_false]
      split
      · split <;> simp
      · simp
    unfold UnpackedFloat.pack at h
    simp only at h
    split at h
    · cases s <;> cases h
    · rename_i hrange
      split at h
      · exact absurd h (hunpacked _ _ (by omega))
      · exact absurd h (hunpacked 0 _ (by decide))

theorem roundWithAccuracy_ne_notANumber (s : Sign) (m : Nat) (e : Int) (accuracy : Accuracy) :
    roundWithAccuracy Format.binary32 s m e accuracy ≠ .notANumber := by
  rw [roundWithAccuracy]
  dsimp only
  split <;> simp

theorem normalize_ne_notANumber (m e : Int) (s : Sign) :
    UnpackedFloat.normalize Format.binary32 m e s ≠ .notANumber := by
  unfold UnpackedFloat.normalize
  split
  · exact roundWithAccuracy_ne_notANumber _ _ _ _
  · simp
  · exact roundWithAccuracy_ne_notANumber _ _ _ _

/-- A sum is not a number only if a summand is none, or both are infinities. -/
theorem isNaN_of_add {x y : Float32} (h : (x + y).isNaN = true) :
    x.isNaN = true ∨ y.isNaN = true ∨ x.isInf = true ∧ y.isInf = true := by
  have hsum : UnpackedFloat.add Format.binary32 x.toModel.unpack y.toModel.unpack = .notANumber :=
    notANumber_of_unpack_pack ((isNaN_iff _).mp h)
  rw [isNaN_iff, isNaN_iff, isInf_iff, isInf_iff]
  cases hx : x.toModel.unpack with
  | notANumber => exact .inl rfl
  | infinity s =>
    cases hy : y.toModel.unpack with
    | notANumber => exact .inr (.inl rfl)
    | infinity t => exact .inr (.inr ⟨⟨s, rfl⟩, t, rfl⟩)
    | zero t => rw [hx, hy] at hsum; cases hsum
    | finite t n f hn => rw [hx, hy] at hsum; cases hsum
  | zero s =>
    cases hy : y.toModel.unpack with
    | notANumber => exact .inr (.inl rfl)
    | infinity t => rw [hx, hy] at hsum; cases hsum
    | zero t => rw [hx, hy] at hsum; cases s <;> cases t <;> cases hsum
    | finite t n f hn => rw [hx, hy] at hsum; cases hsum
  | finite s m e hm =>
    cases hy : y.toModel.unpack with
    | notANumber => exact .inr (.inl rfl)
    | infinity t => rw [hx, hy] at hsum; cases hsum
    | zero t => rw [hx, hy] at hsum; cases hsum
    | finite t n f hn =>
      rw [hx, hy] at hsum
      exact absurd hsum (normalize_ne_notANumber _ _ _)

/-- A quotient is not a number only if one of the two is none, or both are infinities or zeros. -/
theorem isNaN_of_div {x y : Float32} (h : (x / y).isNaN = true) :
    x.isNaN = true ∨ y.isNaN = true ∨ (x.isInf = true ∧ y.isInf = true)
      ∨ ∃ s, x.toModel.unpack = .zero s := by
  have hquotient : UnpackedFloat.div Format.binary32 x.toModel.unpack y.toModel.unpack
      = .notANumber := notANumber_of_unpack_pack ((isNaN_iff _).mp h)
  rw [isNaN_iff, isNaN_iff, isInf_iff, isInf_iff]
  cases hx : x.toModel.unpack with
  | notANumber => exact .inl rfl
  | zero s => exact .inr (.inr (.inr ⟨s, rfl⟩))
  | infinity s =>
    cases hy : y.toModel.unpack with
    | notANumber => exact .inr (.inl rfl)
    | infinity t => exact .inr (.inr (.inl ⟨⟨s, rfl⟩, t, rfl⟩))
    | zero t => rw [hx, hy] at hquotient; cases hquotient
    | finite t n f hn => rw [hx, hy] at hquotient; cases hquotient
  | finite s m e hm =>
    cases hy : y.toModel.unpack with
    | notANumber => exact .inr (.inl rfl)
    | infinity t => rw [hx, hy] at hquotient; cases hquotient
    | zero t => rw [hx, hy] at hquotient; cases hquotient
    | finite t n f hn =>
      rw [hx, hy] at hquotient
      exact absurd hquotient (roundWithAccuracy_ne_notANumber _ _ _ _)

theorem not_le_of_notANumber {x y : Float32} (hy : y.toModel.unpack = .notANumber) : ¬ x ≤ y := by
  rw [le_iff_compare, Float32.Model.compare, hy]
  cases x.toModel.unpack <;> simp [UnpackedFloat.compare]

theorem unpack_mul_of_notANumber {x : Float32} (hx : x.toModel.unpack = .notANumber) (y : Float32) :
    (x * y).toModel.unpack = .notANumber := by
  have hmul : x * y = ⟨.pack (UnpackedFloat.mul Format.binary32 x.toModel.unpack
      y.toModel.unpack)⟩ := rfl
  have hproduct : UnpackedFloat.mul Format.binary32 .notANumber y.toModel.unpack = .notANumber := by
    cases y.toModel.unpack <;> rfl
  rw [hmul, hx, hproduct]
  rfl

end BlockWorld.Number
