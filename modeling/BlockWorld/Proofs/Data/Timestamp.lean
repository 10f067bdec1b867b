import Mathlib.Data.Nat.Digits.Defs
import BlockWorld.Data.Timestamp
import BlockWorld.Proofs.EntryName
/-!
Times are read back as they are written.

The text of a time has its fields in a fixed order and with a fixed number of digits: four for the year,
two for each of the others, up to nine for the fraction of the second. What is read is such a text or a
looser one, in which fields may be shorter.

## How the proof goes

A field is written as `digitsAt`, whose last digit is the remainder by ten, and `digitRun_digitsAt` reads
these digits off the front of a text by induction on their number. Each part of the text then has one
equation: a field (`fixed?_digitsAt`), the fraction (`fraction_fractionText`) and the offset
(`offset?_offsetText`). They are put together in the order of the text (`parseLenient?_text`).

## The side conditions

`Proper` is what every time satisfies that was read (`Proper.of_parseLenient?`, `Proper.of_parse?`): it
exists, its year has at most four digits and its fraction at most nine, and its offset has whole minutes.
The offset is the one place where reading takes more than writing gives. Up to 24 hours and 60 minutes are
read, which is 25 hours; that is written as `25:00`, and no longer read.
-/
namespace BlockWorld.Data.Timestamp

/-! ## Digits -/

/-- The last digits of a number, so many of them. -/
def digitsAt : (width : Nat) → Nat → List Char
  | 0, _ => []
  | width + 1, n => digitsAt width (n / 10) ++ [Nat.digitChar (n % 10)]

theorem length_digitsAt (width n : Nat) : (digitsAt width n).length = width := by
  induction width generalizing n with
  | zero => rfl
  | succ width ih => rw [digitsAt, List.length_append, ih]; rfl

theorem digitsAt_zero (width : Nat) : digitsAt width 0 = List.replicate width '0' := by
  induction width with
  | zero => rfl
  | succ width ih => rw [digitsAt, ih, List.replicate_succ']; rfl

theorem isDigit_of_mem_digitsAt {width n : Nat} {c : Char} (h : c ∈ digitsAt width n) :
    c.isDigit = true := by
  induction width generalizing n with
  | zero => cases h
  | succ width ih =>
    rcases List.mem_append.mp h with hc | hc
    · exact ih hc
    · have hdigit : ∀ d < 10, (Nat.digitChar d).isDigit = true := by decide
      rw [List.mem_singleton.mp hc]
      exact hdigit _ (Nat.mod_lt n (by decide))

/-- A number that fits is written with exactly so many digits. -/
theorem toList_padded {width n : Nat} (hn : n < 10 ^ width) (hwidth : 0 < width) :
    (padded width n).toList = digitsAt width n := by
  induction width generalizing n with
  | zero => omega
  | succ width ih =>
    rw [padded, String.toList_ofList, digitsAt]
    by_cases hlt : n < 10
    · rw [Nat.toDigits_of_lt_base hlt, Nat.div_eq_of_lt hlt, Nat.mod_eq_of_lt hlt, digitsAt_zero]
      rfl
    · have hpos : 0 < width := by
        rcases Nat.eq_zero_or_pos width with rfl | hpos
        · omega
        · exact hpos
      have hdiv := ih (n := n / 10) (by rw [Nat.pow_succ] at hn; omega) hpos
      rw [padded, String.toList_ofList] at hdiv
      rw [Nat.toDigits_of_base_le (by decide) (by omega), ← hdiv, List.length_append,
        List.length_singleton, Nat.add_sub_add_right, List.append_assoc]

/-- Digits are read off the front of a text. -/
theorem digitRun_digitsAt {width n : Nat} (hn : n < 10 ^ width) (acc count : Nat) (rest : List Char) :
    Number.digitRun acc count (digitsAt width n ++ rest)
      = Number.digitRun (acc * 10 ^ width + n) (count + width) rest := by
  induction width generalizing n rest with
  | zero =>
    obtain rfl : n = 0 := by omega
    rw [digitsAt, List.nil_append, Nat.pow_zero, Nat.mul_one, Nat.add_zero, Nat.add_zero]
  | succ width ih =>
    have hlast : n % 10 < 10 := Nat.mod_lt n (by decide)
    have hsum : (acc * 10 ^ width + n / 10) * 10 + n % 10 = acc * 10 ^ (width + 1) + n := by
      rw [Nat.pow_succ, ← Nat.mul_assoc, Nat.add_mul]
      omega
    rw [digitsAt, List.append_assoc, List.singleton_append, ih (by rw [Nat.pow_succ] at hn; omega),
      Number.digitRun, Text.digitValue?_digitChar _ hlast]
    dsimp only
    rw [hsum, Nat.add_assoc]

theorem fixed?_digitsAt {width n : Nat} (hn : n < 10 ^ width) (rest : List Char) :
    fixed? width (digitsAt width n ++ rest) = some (n, rest) := by
  have hrun := digitRun_digitsAt hn 0 0 []
  rw [List.append_nil, Nat.zero_mul, Nat.zero_add, Nat.zero_add, Number.digitRun] at hrun
  rw [fixed?, List.take_left' (length_digitsAt ..), List.drop_left' (length_digitsAt ..),
    if_pos (length_digitsAt ..), hrun]

theorem short?_digitsAt {n : Nat} (hn : n < 100) (rest : List Char) :
    short? (digitsAt 2 n ++ rest) = some (n, rest) := by
  rw [short?, fixed?_digitsAt hn]

/-! ## Fraction and offset -/

/-- Zeros behind some digits. -/
theorem digitRun_zeros {cs : List Char} {v m : Nat} (k acc count : Nat)
    (h : Number.digitRun acc count cs = (v, m, [])) :
    Number.digitRun acc count (cs ++ List.replicate k '0') = (v * 10 ^ k, m + k, []) := by
  induction cs generalizing acc count with
  | nil =>
    obtain ⟨rfl, rfl⟩ : acc = v ∧ count = m := by simpa [Number.digitRun] using h
    have hzeros := digitRun_digitsAt (n := 0) (Nat.pow_pos (n := k) (by decide)) acc count []
    rw [digitsAt_zero, List.append_nil] at hzeros
    exact hzeros
  | cons c cs ih =>
    rw [List.cons_append, Number.digitRun]
    rw [Number.digitRun] at h
    cases hc : Text.digitValue? c with
    | none => rw [hc] at h; cases h
    | some d => rw [hc] at h; exact ih _ _ h

theorem digitValue?_of_isDigit {c : Char} (h : c.isDigit = true) : ∃ d, Text.digitValue? c = some d := by
  refine ⟨_, if_pos ?_⟩
  simpa [Char.isDigit, Char.le_def] using h

/-- A run of digits is read to its end. -/
theorem digitRun_of_isDigit {cs : List Char} (h : ∀ c ∈ cs, c.isDigit = true) (acc count : Nat) :
    ∃ v, Number.digitRun acc count cs = (v, count + cs.length, []) := by
  induction cs generalizing acc count with
  | nil => exact ⟨acc, rfl⟩
  | cons c cs ih =>
    obtain ⟨d, hd⟩ := digitValue?_of_isDigit (h c List.mem_cons_self)
    obtain ⟨v, hv⟩ := ih (fun x hx => h x (List.mem_cons_of_mem c hx)) (acc * 10 + d) (count + 1)
    refine ⟨v, ?_⟩
    rw [Number.digitRun, hd]
    dsimp only
    rw [hv, List.length_cons, Nat.add_assoc, Nat.add_comm 1]

/-- Digits without the zeros at their end. -/
def trimmed (cs : List Char) : List Char := (cs.reverse.dropWhile (· == '0')).reverse

theorem mem_of_mem_trimmed {cs : List Char} {c : Char} (h : c ∈ trimmed cs) : c ∈ cs := by
  rw [trimmed, List.mem_reverse] at h
  exact List.mem_reverse.mp ((List.dropWhile_sublist _).mem h)

theorem trimmed_append (cs : List Char) :
    ∃ k, trimmed cs ++ List.replicate k '0' = cs ∧ (trimmed cs).length + k = cs.length := by
  have hzeros : cs.reverse.takeWhile (· == '0')
      = List.replicate (cs.reverse.takeWhile (· == '0')).length '0' := by
    refine List.eq_replicate_of_mem fun c hc => ?_
    have hall := List.all_eq_true.mp (List.all_takeWhile (p := (· == '0')) (l := cs.reverse)) c hc
    exact beq_iff_eq.mp hall
  have hsplit : trimmed cs ++ (cs.reverse.takeWhile (· == '0')).reverse = cs := by
    rw [trimmed, ← List.reverse_append, List.takeWhile_append_dropWhile, List.reverse_reverse]
  have hlength := congrArg List.length hsplit
  rw [List.length_append, List.length_reverse] at hlength
  rw [hzeros, List.reverse_replicate] at hsplit
  exact ⟨_, hsplit, hlength⟩

/-- What may stand behind the seconds of a time: the sign of an offset. -/
def IsSign (c : Char) : Prop := c = 'Z' ∨ c = '+' ∨ c = '-'

theorem IsSign.isDigit {c : Char} (h : IsSign c) : c.isDigit = false := by
  rcases h with rfl | rfl | rfl <;> rfl

/-- What is read from digits without the zeros at their end, and how many zeros there were. -/
theorem digitRun_trimmed {width n : Nat} (hn : n < 10 ^ width) :
    ∃ v k, Number.digitRun 0 0 (trimmed (digitsAt width n)) = (v, (trimmed (digitsAt width n)).length, [])
      ∧ v * 10 ^ k = n ∧ (trimmed (digitsAt width n)).length + k = width := by
  obtain ⟨k, happend, hlength⟩ := trimmed_append (digitsAt width n)
  obtain ⟨v, hv⟩ := digitRun_of_isDigit (fun c hc => isDigit_of_mem_digitsAt (mem_of_mem_trimmed hc)) 0 0
  have hall := digitRun_digitsAt hn 0 0 []
  rw [List.append_nil, ← happend, digitRun_zeros k 0 0 hv, Nat.zero_mul, Nat.zero_add, Number.digitRun] at hall
  rw [Nat.zero_add] at hv
  exact ⟨v, k, hv, (congrArg Prod.fst hall).trans (Nat.zero_add _), hlength.trans (length_digitsAt ..)⟩

/-- The fraction of a second is read back, in front of an offset. -/
theorem fraction_fractionText {t : Timestamp} (h : t.nanosecond < 10 ^ 9) {sign : Char} (hsign : IsSign sign)
    (rest : List Char) :
    fraction (t.fractionText.toList ++ sign :: rest) = (t.nanosecond, sign :: rest) := by
  rw [fractionText]
  split
  · rename_i hzero
    have hnone : ¬((sign = '.' ∨ sign = ',') ∧
        (!(rest.takeWhile Char.isDigit).isEmpty) = true) := by
      rintro ⟨hmark, -⟩
      rcases hsign with rfl | rfl | rfl <;> simp at hmark
    rw [show "".toList ++ sign :: rest = sign :: rest from rfl, fraction]
    dsimp only
    rw [if_neg hnone, hzero]
  · rename_i hnonzero
    rw [String.toList_ofList, toList_padded h (by decide)]
    change fraction ('.' :: trimmed (digitsAt 9 t.nanosecond) ++ sign :: rest) = _
    have hdigits : ∀ c ∈ trimmed (digitsAt 9 t.nanosecond), c.isDigit = true := fun c hc =>
      isDigit_of_mem_digitsAt (mem_of_mem_trimmed hc)
    obtain ⟨v, k, hv, hvalue, hlength⟩ := digitRun_trimmed h
    generalize trimmed (digitsAt 9 t.nanosecond) = digits at hdigits hv hlength
    have htake : (digits ++ sign :: rest).takeWhile Char.isDigit = digits := by
      rw [List.takeWhile_append_of_pos hdigits, List.takeWhile_cons_of_neg (by simp [hsign.isDigit]),
        List.append_nil]
    have hsome : digits ≠ [] := by
      rintro rfl
      cases hv
      omega
    have hnine : digits.take 9 = digits := List.take_of_length_le (by omega)
    rw [List.cons_append, fraction]
    dsimp only
    rw [htake, if_pos ⟨.inl rfl, by simp [hsome]⟩, hnine, hv, List.drop_left]
    have hk : 9 - digits.length = k := by omega
    rw [hk]
    exact Prod.ext hvalue rfl

/-- What every time satisfies that was read: it exists, and it can be written with four digits for the year,
nine for the fraction of a second, and whole minutes for the offset, which is at most 25 hours. -/
structure Proper (t : Timestamp) : Prop where
  valid : t.isValid = true
  year : t.year < 10000
  nanosecond : t.nanosecond < 10 ^ 9
  minutes : 60 ∣ t.offset.natAbs
  offset : t.offset.natAbs ≤ 90000

instance (t : Timestamp) : Decidable t.Proper :=
  decidable_of_iff (t.isValid = true ∧ t.year < 10000 ∧ t.nanosecond < 10 ^ 9 ∧ 60 ∣ t.offset.natAbs
      ∧ t.offset.natAbs ≤ 90000)
    ⟨fun ⟨hvalid, hyear, hnano, hminutes, hoffset⟩ => ⟨hvalid, hyear, hnano, hminutes, hoffset⟩,
      fun ⟨hvalid, hyear, hnano, hminutes, hoffset⟩ => ⟨hvalid, hyear, hnano, hminutes, hoffset⟩⟩

/-- An offset that is read back: one of less than 25 hours. -/
def Near (t : Timestamp) : Prop := t.offset.natAbs < 90000

instance (t : Timestamp) : Decidable t.Near := inferInstanceAs (Decidable (_ < _))

theorem offset?_signed {sign : Char} {hours minutes : Nat} (hhours : hours ≤ 24) (hminutes : minutes < 60)
    (hsign : sign = '+' ∨ sign = '-') :
    offset? (sign :: (digitsAt 2 hours ++ ':' :: digitsAt 2 minutes))
      = some (if sign = '+' then ((hours * 60 + minutes) * 60 : Int)
        else -((hours * 60 + minutes) * 60 : Int)) := by
  have hdigits := @fixed?_digitsAt 2 minutes (by omega) []
  rw [List.append_nil] at hdigits
  rw [offset?]
  · rw [fixed?_digitsAt (by omega)]
    simp only [Option.bind_eq_bind, Option.bind_some, mark?, if_true, hdigits]
    rw [if_neg (by simp; omega)]
    rcases hsign with rfl | rfl <;> simp
  · rcases hsign with rfl | rfl <;> simp

theorem offset?_offsetText {t : Timestamp} (h : t.Proper) (hnear : t.Near) :
    offset? t.offsetText.toList = some t.offset := by
  obtain ⟨hours, hhours⟩ : ∃ hours, t.offset.natAbs / 60 / 60 = hours := ⟨_, rfl⟩
  obtain ⟨minutes, hminutes⟩ : ∃ minutes, t.offset.natAbs / 60 % 60 = minutes := ⟨_, rfl⟩
  have hdvd := h.minutes
  rw [Near] at hnear
  rw [offsetText]
  split
  · rename_i hzero
    rw [hzero]
    rfl
  · rename_i hnonzero
    dsimp only
    rw [hhours, hminutes, String.toList_append, String.toList_append, String.toList_append,
      toList_padded (by omega) (by decide), toList_padded (by omega) (by decide)]
    split
    · exact (offset?_signed (by omega) (by omega) (.inr rfl)).trans (by simp; omega)
    · exact (offset?_signed (by omega) (by omega) (.inl rfl)).trans (by simp; omega)

/-- The text of an offset starts with its sign. -/
theorem offsetText_eq_cons (t : Timestamp) : ∃ sign rest, IsSign sign ∧ t.offsetText.toList = sign :: rest := by
  rw [offsetText]
  split
  · exact ⟨'Z', [], .inl rfl, rfl⟩
  · dsimp only
    split
    · exact ⟨'-', _, .inr (.inr rfl), by rw [String.append_assoc, String.append_assoc, String.toList_append]; rfl⟩
    · exact ⟨'+', _, .inr (.inl rfl), by rw [String.append_assoc, String.append_assoc, String.toList_append]; rfl⟩

/-! ## Texts -/

theorem bounds_of_isValid {t : Timestamp} (h : t.isValid = true) :
    t.month < 100 ∧ t.day < 100 ∧ t.hour < 100 ∧ t.minute < 100 ∧ t.second < 100 := by
  have hdays : daysIn t.year t.month ≤ 31 := by
    unfold daysIn
    split
    · split <;> decide
    all_goals decide
  simp only [isValid, Bool.and_eq_true, decide_eq_true_eq] at h
  omega

/-- The characters of the text. -/
theorem toList_text {t : Timestamp} (h : t.Proper) :
    t.text.toList = digitsAt 4 t.year ++ '-' :: (digitsAt 2 t.month ++ '-' :: (digitsAt 2 t.day
      ++ 'T' :: (digitsAt 2 t.hour ++ ':' :: (digitsAt 2 t.minute ++ ':' :: (digitsAt 2 t.second
        ++ (t.fractionText.toList ++ t.offsetText.toList)))))) := by
  have hyear := h.year
  obtain ⟨hmonth, hday, hhour, hminute, hsecond⟩ := bounds_of_isValid h.valid
  rw [text, dateText, clockText]
  simp only [String.toList_append]
  rw [toList_padded (by omega) (by decide), toList_padded (by omega) (by decide),
    toList_padded (by omega) (by decide), toList_padded (by omega) (by decide),
    toList_padded (by omega) (by decide), toList_padded (by omega) (by decide)]
  simp [List.append_assoc]

theorem mark?_self (c : Char) (rest : List Char) : mark? c (c :: rest) = some rest := by
  rw [mark?, if_pos rfl]

/-- A time is read back as it was written. -/
theorem parseLenient?_text {t : Timestamp} (h : t.Proper) (hnear : t.Near) :
    parseLenient? t.text = some t := by
  have hyear := h.year
  obtain ⟨hmonth, hday, hhour, hminute, hsecond⟩ := bounds_of_isValid h.valid
  obtain ⟨sign, rest, hsign, hoffset⟩ := t.offsetText_eq_cons
  have hread := offset?_offsetText h hnear
  have hdate : dateTime? short? 'T' t.text.toList = some ({ t with offset := 0 }, t.offsetText.toList) := by
    rw [toList_text h, hoffset, dateTime?, date?]
    simp only [Option.bind_eq_bind, Option.bind_some, @fixed?_digitsAt 4 t.year (by omega),
      mark?_self, short?_digitsAt hmonth, short?_digitsAt hday, short?_digitsAt hhour,
      short?_digitsAt hminute, short?_digitsAt hsecond, fraction_fractionText h.nanosecond hsign,
      if_neg (show 'T' ≠ ' ' by decide)]
  rw [parseLenient?, withOffset?, hdate]
  simp only [Option.bind_eq_bind, Option.bind_some, hread]
  rw [if_pos (show ({ t with offset := 0 } : Timestamp).isValid = true from h.valid)]
  rfl

/-! ## What is read -/

theorem digitRun_lt {cs : List Char} {acc count v m : Nat} (h : Number.digitRun acc count cs = (v, m, [])) :
    v < (acc + 1) * 10 ^ cs.length := by
  induction cs generalizing acc count with
  | nil =>
    obtain ⟨rfl, -⟩ : acc = v ∧ count = m := by simpa [Number.digitRun] using h
    rw [List.length_nil, Nat.pow_zero]
    omega
  | cons c cs ih =>
    rw [Number.digitRun] at h
    cases hc : Text.digitValue? c with
    | none => rw [hc] at h; cases h
    | some d =>
      rw [hc] at h
      have hd : d < 10 := by
        rw [Text.digitValue?] at hc
        split at hc
        · rename_i hrange
          have hlast : c.toNat ≤ '9'.toNat := hrange.2
          obtain rfl := Option.some.inj hc
          have hzero : '0'.toNat = 48 := rfl
          have hnine : '9'.toNat = 57 := rfl
          omega
        · cases hc
      have hnext := ih h
      rw [List.length_cons, Nat.pow_succ, Nat.mul_comm (10 ^ cs.length) 10, ← Nat.mul_assoc]
      exact Nat.lt_of_lt_of_le hnext (Nat.mul_le_mul_right _ (by omega))

theorem fixed?_lt {n v : Nat} {cs rest : List Char} (h : fixed? n cs = some (v, rest)) : v < 10 ^ n := by
  rw [fixed?] at h
  split at h
  · rename_i hlength
    split at h
    · rename_i hrun
      cases h
      have hlt := digitRun_lt hrun
      rwa [hlength, Nat.zero_add, Nat.one_mul] at hlt
    · cases h
  · cases h

theorem fraction_lt (cs : List Char) : (fraction cs).1 < 10 ^ 9 := by
  rw [fraction.eq_def]
  split
  · rename_i c rest
    dsimp only
    split
    · obtain ⟨nine, hnine⟩ : ∃ nine, (rest.takeWhile Char.isDigit).take 9 = nine := ⟨_, rfl⟩
      have hdigits : ∀ d ∈ nine, d.isDigit = true := fun d hd => by
        rw [← hnine] at hd
        exact List.all_eq_true.mp List.all_takeWhile d (List.mem_of_mem_take hd)
      have hlength : nine.length ≤ 9 := by rw [← hnine]; exact List.length_take_le ..
      obtain ⟨v, hv⟩ := digitRun_of_isDigit hdigits 0 0
      have hlt := digitRun_lt hv
      rw [Nat.zero_add, Nat.one_mul] at hlt
      rw [hnine, hv]
      dsimp only
      calc v * 10 ^ (9 - nine.length)
          < 10 ^ nine.length * 10 ^ (9 - nine.length) :=
            Nat.mul_lt_mul_of_pos_right hlt (Nat.pow_pos (by decide))
        _ = 10 ^ 9 := by rw [← Nat.pow_add, Nat.add_sub_cancel' hlength]
    · exact Nat.pow_pos (by decide)
  · exact Nat.pow_pos (by decide)

theorem offset?_bounds {cs : List Char} {offset : Int} (h : offset? cs = some offset) :
    60 ∣ offset.natAbs ∧ offset.natAbs ≤ 90000 := by
  rw [offset?.eq_def] at h
  split at h
  · cases h
    decide
  · simp only [Option.bind_eq_bind, Option.bind_eq_some_iff] at h
    obtain ⟨⟨hours, rest₁⟩, -, rest₂, -, ⟨minutes, rest₃⟩, -, h⟩ := h
    dsimp only at h
    split at h
    · cases h
    · rename_i hbounds
      simp only [Bool.or_eq_true, decide_eq_true_eq, not_or, Nat.not_lt] at hbounds
      split at h
      · cases h
        omega
      · split at h
        · cases h
          omega
        · cases h
  · cases h

/-- Times before their offset is read. -/
structure Started (t : Timestamp) : Prop where
  year : t.year < 10000
  nanosecond : t.nanosecond < 10 ^ 9
  offset : t.offset = 0

section Reading

variable {field : FieldReader} {divider : Char} {cs rest : List Char} {t : Timestamp}
  {found : Option (Timestamp × List Char)}

theorem Started.of_date? (h : date? field cs = some (t, rest)) : t.Started := by
  simp only [date?, Option.bind_eq_bind, Option.bind_eq_some_iff] at h
  obtain ⟨⟨year, _⟩, hyear, _, -, ⟨month, _⟩, -, _, -, ⟨day, _⟩, -, h⟩ := h
  cases h
  exact ⟨fixed?_lt hyear, Nat.pow_pos (by decide), rfl⟩

theorem Started.of_dateTime? (h : dateTime? field divider cs = some (t, rest)) : t.Started := by
  simp only [dateTime?, Option.bind_eq_bind, Option.bind_eq_some_iff] at h
  obtain ⟨⟨t', _⟩, hdate, _, -, _, -, _, -, _, -, _, -, ⟨second, _⟩, -, h⟩ := h
  cases h
  exact ⟨(Started.of_date? hdate).year, fraction_lt _, (Started.of_date? hdate).offset⟩

theorem Proper.of_withOffset? (hfound : ∀ t rest, found = some (t, rest) → t.Started)
    (h : withOffset? found = some t) : t.Proper := by
  simp only [withOffset?, Option.bind_eq_bind, Option.bind_eq_some_iff] at h
  obtain ⟨⟨t', rest⟩, rfl, offset, hoffset, h⟩ := h
  have hstarted := hfound t' rest rfl
  obtain ⟨hminutes, hbound⟩ := offset?_bounds hoffset
  dsimp only at h
  split at h
  · rename_i hvalid
    cases h
    exact ⟨hvalid, hstarted.year, hstarted.nanosecond, hminutes, hbound⟩
  · cases h

theorem Proper.of_alone? (hfound : ∀ t rest, found = some (t, rest) → t.Started)
    (h : alone? found = some t) : t.Proper := by
  simp only [alone?, Option.bind_eq_bind, Option.bind_eq_some_iff] at h
  obtain ⟨⟨t', rest⟩, rfl, h⟩ := h
  have hstarted := hfound t' rest rfl
  dsimp only at h
  split at h
  · rename_i hvalid
    cases h
    rw [Bool.and_eq_true] at hvalid
    refine ⟨hvalid.2, hstarted.year, hstarted.nanosecond, ?_, ?_⟩
    · rw [hstarted.offset]
      decide
    · rw [hstarted.offset]
      decide
  · cases h

/-- Every time that is read in full is proper. -/
theorem Proper.of_parse? {s : String} (h : parse? s = some t) : t.Proper :=
  .of_withOffset? (fun _ _ => .of_dateTime?) h

/-- So is every time in a looser form. -/
theorem Proper.of_parseLenient? {s : String} (h : parseLenient? s = some t) : t.Proper := by
  simp only [parseLenient?, Option.or_eq_some_iff] at h
  obtain h | ⟨-, h | ⟨-, h | ⟨-, h⟩⟩⟩ := h
  · exact .of_withOffset? (fun _ _ => .of_dateTime?) h
  · exact .of_withOffset? (fun _ _ => .of_dateTime?) h
  · exact .of_alone? (fun _ _ => .of_dateTime?) h
  · exact .of_alone? (fun _ _ => .of_date?) h

end Reading

theorem proper_zero : zero.Proper := by decide

-- The greatest offset that is read is written in a form that is not.
example : (parse? "2024-01-01T00:00:00+24:60").map text = some "2024-01-01T00:00:00+25:00"
    ∧ parse? "2024-01-01T00:00:00+25:00" = none := by
  decide +kernel

end BlockWorld.Data.Timestamp
