import BlockWorld.Proofs.Data.Timestamp
import BlockWorld.Proofs.Data.Yaml.Values
import BlockWorld.Proofs.EntryNameGrammar
/-!
# Numbers and times as values of pairs

A scalar without quotes stands for what it looks like. Numbers and times are written without quotes and have
to look like what they are:

    resolve true (Text.integer n) = .int n.toInt                          `resolve_integer`
    t.Proper → t.Near → resolve true t.text = .time t                     `resolve_text`

## How the proof goes

Both are made of figures (`isFigure`): digits, signs, and the few marks of times. What is needed of the
characters one by one is tried for all of them at once (`isFigure_facts`), and gives that such a text can
stand without quotes (`readsAs_figures`) and that it is none of the words with a meaning of their own
(`not_mem_of_isFigure`). So if it starts with a digit or a minus it is a time, or else a number
(`resolve_figures`).

That a time is read as a time is known from its text (`Timestamp.parseLenient?_text`). A number is no time,
because a time has a mark behind the digits of its year and a number has nothing behind its digits
(`parseLenient?_integer`). It is read as a number digit by digit (`digitsIn?_toDigits`, `integer?_integer`).
-/
namespace BlockWorld.Data.Yaml

/-! ## Figures -/

/-- The characters of numbers and times. -/
def isFigure (c : Char) : Bool :=
  c.isDigit || c == '-' || c == '+' || c == ':' || c == '.' || c == 'T' || c == 'Z'

theorem ascii_of_isDigit {c : Char} (h : c.isDigit = true) : c.toNat < 128 := by
  rw [Char.isDigit, Bool.and_eq_true_iff, decide_eq_true_iff, decide_eq_true_iff] at h
  exact Nat.lt_of_le_of_lt (show c.val.toNat ≤ 57 from h.2) (by decide)

theorem ascii_of_isFigure {c : Char} (h : isFigure c = true) : c.toNat < 128 := by
  simp only [isFigure, Bool.or_eq_true_iff, beq_iff_eq] at h
  rcases h with (((((h | rfl) | rfl) | rfl) | rfl) | rfl) | rfl
  · exact ascii_of_isDigit h
  all_goals decide

theorem isFigure_facts {c : Char} (h : isFigure c = true) :
    IsAscii c ∧ isBlankChar c = false ∧ isBreak c = false ∧ c ≠ '#' ∧ isIndicator c = false
      ∧ c ≠ '?' ∧ c ≠ ' ' := by
  have hall := forall_ascii (p := fun c => isFigure c → IsAscii c ∧ isBlankChar c = false ∧ isBreak c = false
    ∧ c ≠ '#' ∧ isIndicator c = false ∧ c ≠ '?' ∧ c ≠ ' ') (by decide +kernel) (ascii_of_isFigure h)
  exact decide_eq_true_iff.mp hall h

theorem hasNoMark_of_isFigure {v : List Char} (h : ∀ c ∈ v, isFigure c = true) (hlast : v.getLast? ≠ some ':')
    (blank : Bool) : hasNoMark blank v = true := by
  induction v generalizing blank with
  | nil => rfl
  | cons c v ih =>
    obtain ⟨-, -, -, hmark, -⟩ := isFigure_facts (h c List.mem_cons_self)
    have hrest : hasNoMark (isBlankChar c) v = true := by
      refine ih (fun d hd => h d (List.mem_cons_of_mem c hd)) (fun hv => hlast ?_) _
      rw [List.getLast?_cons, hv]
      rfl
    have hcolon : (c == ':' && startsBlank v) = false := by
      cases v with
      | nil =>
        have hne : c ≠ ':' := fun he => hlast (by rw [he]; rfl)
        rw [beq_eq_false_iff_ne.mpr hne, Bool.false_and]
      | cons d v =>
        obtain ⟨-, hblank, hbreak, -⟩ := isFigure_facts (h d (List.mem_cons_of_mem c List.mem_cons_self))
        rw [startsBlank, hblank, hbreak, Bool.or_self, Bool.and_false]
    rw [hasNoMark, hcolon, beq_eq_false_iff_ne.mpr hmark, hrest]
    rfl

theorem isAscii_of_isFigure {v : List Char} (h : ∀ c ∈ v, isFigure c = true) : ∀ c ∈ v ++ ['\n'], IsAscii c := by
  rw [List.forall_mem_append]
  exact ⟨fun c hc => (isFigure_facts (h c hc)).1, isAscii_of_all (by decide)⟩

/-- A number or a time is read as it is written. -/
theorem readsAs_figures {c : Char} {cs : List Char} (h : ∀ d ∈ c :: cs, isFigure d = true)
    (hfirst : c.isDigit = true ∨ c = '-' ∧ cs ≠ []) (hlast : (c :: cs).getLast? ≠ some ':') :
    ReadsAs (c :: cs ++ ['\n']) (c :: cs) true := by
  have hspace : ' ' ∉ c :: cs := fun hmem => (isFigure_facts (h _ hmem)).2.2.2.2.2.2 rfl
  have hplain : PlainText (c :: cs) :=
    { nonempty := nofun
      visible := fun d hd _ => ⟨(isFigure_facts (h d hd)).2.1, (isFigure_facts (h d hd)).2.2.1⟩
      first := fun hhead => hspace (List.mem_of_head? hhead)
      last := fun hhead => hspace (List.mem_of_getLast? hhead)
      marks := hasNoMark_of_isFigure h hlast true }
  obtain ⟨-, -, -, -, hindicator, -⟩ := isFigure_facts (h c List.mem_cons_self)
  refine readsAs_plain hplain rfl hindicator fun hc => ?_
  obtain hdigit | ⟨-, hne⟩ := hfirst
  · rcases hc with rfl | rfl | rfl <;> cases hdigit
  · obtain ⟨d, ds, rfl⟩ := List.exists_cons_of_ne_nil hne
    obtain ⟨-, hblank, hbreak, -⟩ := isFigure_facts (h d (List.mem_cons_of_mem c List.mem_cons_self))
    rw [startsBlank, hblank, hbreak]
    rfl

/-- No word that stands for something is made of such characters alone. -/
theorem not_mem_of_isFigure {s : String} (hne : s.toList ≠ []) (h : ∀ c ∈ s.toList, isFigure c = true)
    {words : List String}
    (hwords : (words.all fun w => w.isEmpty || w.toList.any fun d => !isFigure d) = true) : s ∉ words := by
  intro hmem
  have hw := List.all_eq_true.mp hwords s hmem
  rw [Bool.or_eq_true_iff, List.any_eq_true] at hw
  obtain hempty | ⟨d, hd, hfigure⟩ := hw
  · rw [String.isEmpty_iff.mp hempty] at hne
    exact hne rfl
  · rw [h d hd] at hfigure
    cases hfigure

/-- What starts with a digit or a minus is a time, or else a number. -/
theorem resolve_figures {s : String} (h : ∀ c ∈ s.toList, isFigure c = true) {c : Char} {cs : List Char}
    (hcons : s.toList = c :: cs) (hfirst : c.isDigit = true ∨ c = '-' ∧ cs ≠ []) :
    resolve true s = ((Timestamp.parseLenient? s).map Meaning.time).getD (numeric s) := by
  have hne : s.toList ≠ [] := by rw [hcons]; nofun
  have hstart : (c.isDigit || c == '+' || c == '-') = true := by
    obtain hc | ⟨rfl, -⟩ := hfirst
    · rw [hc]; rfl
    · rfl
  rw [resolve, if_neg (not_mem_of_isFigure hne h (by decide)), if_neg (not_mem_of_isFigure hne h (by decide)),
    if_neg (not_mem_of_isFigure hne h (by decide)), numberWord?,
    if_neg (not_mem_of_isFigure hne h (by decide)), if_neg (not_mem_of_isFigure hne h (by decide)),
    if_neg (not_mem_of_isFigure hne h (by decide)), hcons]
  dsimp only
  rw [if_pos hstart, if_pos rfl]
  cases Timestamp.parseLenient? s with
  | none => rfl
  | some t => rfl

/-! ## Numbers -/

/-- The characters of a number: a digit in front, or a minus and a digit behind it. -/
theorem integer_eq_cons (n : Int64) :
    ∃ c cs, (Text.integer n).toList = c :: cs ∧ (c.isDigit = true ∨ c = '-' ∧ cs ≠ [])
      ∧ (∀ d ∈ cs, d.isDigit = true) := by
  have hdigits := fun c => Text.isDigit_of_mem_toDigits (n := n.toInt.natAbs) (c := c)
  have hne : Nat.toDigits 10 n.toInt.natAbs ≠ [] := Nat.toDigits_ne_nil
  rw [Text.toList_integer]
  split
  · exact ⟨'-', _, rfl, .inr ⟨rfl, hne⟩, hdigits⟩
  · obtain ⟨c, cs, hcons⟩ := List.exists_cons_of_ne_nil hne
    rw [hcons] at hdigits
    exact ⟨c, cs, hcons, .inl (hdigits c List.mem_cons_self), fun d hd => hdigits d (List.mem_cons_of_mem c hd)⟩

theorem isFigure_of_mem_integer {n : Int64} {c : Char} (h : c ∈ (Text.integer n).toList) : isFigure c = true := by
  obtain ⟨d, ds, hcons, hfirst, hdigits⟩ := integer_eq_cons n
  rw [hcons] at h
  have hdigit : c.isDigit = true → isFigure c = true := fun hc => by rw [isFigure, hc]; rfl
  rcases List.mem_cons.mp h with rfl | hc
  · obtain hc | ⟨rfl, -⟩ := hfirst
    · exact hdigit hc
    · rfl
  · exact hdigit (hdigits c hc)

theorem readsAs_integer (n : Int64) :
    ReadsAs ((Text.integer n).toList ++ ['\n']) (Text.integer n).toList true := by
  obtain ⟨c, cs, hcons, hfirst, hdigits⟩ := integer_eq_cons n
  have hfigures := fun d => isFigure_of_mem_integer (n := n) (c := d)
  rw [hcons] at hfigures ⊢
  refine readsAs_figures hfigures hfirst fun hlast => ?_
  rcases List.mem_cons.mp (List.mem_of_getLast? hlast) with rfl | hmem
  · obtain hc | ⟨hc, -⟩ := hfirst
    · cases hc
    · cases hc
  · cases hdigits ':' hmem

theorem Timestamp.fixed?_rest {n v : Nat} {cs rest : List Char} (h : Timestamp.fixed? n cs = some (v, rest)) :
    rest = cs.drop n := by
  rw [Timestamp.fixed?] at h
  split at h
  · split at h
    · exact (congrArg Prod.snd (Option.some.inj h)).symm
    · cases h
  · cases h

/-- A number is no time: it has no mark behind its digits. -/
theorem parseLenient?_integer (n : Int64) : Timestamp.parseLenient? (Text.integer n) = none := by
  have hdate : ∀ field, Timestamp.date? field (Text.integer n).toList = none := by
    intro field
    obtain ⟨c, cs, hcons, -, hdigits⟩ := integer_eq_cons n
    have hmark : Timestamp.mark? '-' ((c :: cs).drop 4) = none := by
      rw [List.drop_succ_cons]
      cases hrest : cs.drop 3 with
      | nil => rfl
      | cons d rest =>
        have hd := hdigits d (List.mem_of_mem_drop (by rw [hrest]; exact List.mem_cons_self))
        refine if_neg ?_
        rintro rfl
        cases hd
    rw [hcons, Timestamp.date?]
    cases hfour : Timestamp.fixed? 4 (c :: cs) with
    | none => rfl
    | some found =>
      obtain ⟨year, rest⟩ := found
      obtain rfl := Timestamp.fixed?_rest hfour
      simp only [Option.bind_eq_bind, Option.bind_some, hmark, Option.bind_none]
  rw [Timestamp.parseLenient?]
  simp [Timestamp.dateTime?, hdate, Timestamp.withOffset?, Timestamp.alone?]

theorem hexValue?_digitChar : ∀ d < 10, Json.hexValue? (Nat.digitChar d) = some d := by decide

theorem digitsIn?_toDigits (n : Nat) : digitsIn? 10 (Nat.toDigits 10 n) = some n := by
  have hfold : ∀ n, (Nat.toDigits 10 n).foldl (fun acc c => do
      let n ← acc
      let d ← Json.hexValue? c
      if d < 10 then some (n * 10 + d) else none) (some 0) = some n := by
    intro n
    induction n using Nat.strongRecOn with
    | ind n ih =>
      by_cases hlt : n < 10
      · rw [Nat.toDigits_of_lt_base hlt]
        simp [hexValue?_digitChar n hlt, hlt]
      · have hlast : n % 10 < 10 := Nat.mod_lt n (by decide)
        rw [Nat.toDigits_of_base_le (by decide) (by omega), List.foldl_append, ih (n / 10) (by omega)]
        simp only [List.foldl_cons, List.foldl_nil, hexValue?_digitChar _ hlast, Option.bind_eq_bind,
          Option.bind_some, if_pos hlast]
        congr 1
        omega
  rw [digitsIn?, if_neg (by simp [Nat.toDigits_ne_nil]), hfold]

theorem natural?_toDigits (n : Nat) : natural? (Nat.toDigits 10 n) = some n := by
  rw [natural?.eq_def]
  split
  · rename_i c rest hcons
    have hzero := Text.eq_zero_of_head_toDigits (m := n) (by rw [hcons]; rfl)
    rw [hzero] at hcons
    cases hcons
  · exact digitsIn?_toDigits n

theorem integer?_integer (n : Int64) : integer? (Text.integer n).toList = some n.toInt := by
  have hge : -9223372036854775808 ≤ n.toInt := n.le_toInt
  have hlt : n.toInt < 9223372036854775808 := n.toInt_lt
  have hnatural := natural?_toDigits n.toInt.natAbs
  rw [integer?, Text.toList_integer]
  split
  · rw [signedBy?, hnatural]
    simp only [Option.bind_eq_bind, Option.bind_some]
    rw [if_pos (by change n.toInt.natAbs ≤ 9223372036854775808; omega)]
    congr 1
    omega
  · have hsign : ∀ c rest, Nat.toDigits 10 n.toInt.natAbs = c :: rest → c.isDigit = true := fun c rest hcons =>
      Text.isDigit_of_mem_toDigits (by rw [hcons]; exact List.mem_cons_self)
    rw [signedBy?.eq_def]
    split
    · rename_i rest hcons
      cases hsign _ _ hcons
    · rename_i rest hcons
      cases hsign _ _ hcons
    · rw [hnatural]
      simp only [Option.bind_eq_bind, Option.bind_some]
      rw [if_pos (by change n.toInt.natAbs < 18446744073709551616; omega)]
      congr 1
      omega

/-- A number stands for itself. -/
theorem resolve_integer (n : Int64) : resolve true (Text.integer n) = .int n.toInt := by
  obtain ⟨c, cs, hcons, hfirst, -⟩ := integer_eq_cons n
  have hunderscore : withoutDividers (Text.integer n).toList = (Text.integer n).toList := by
    rw [withoutDividers, List.filter_eq_self]
    intro d hd
    exact bne_iff_ne.mpr fun he => Text.underscore_notMem_integer n (he ▸ hd)
  rw [resolve_figures (fun d hd => isFigure_of_mem_integer hd) hcons hfirst, parseLenient?_integer]
  simp [numeric, hunderscore, integer?_integer]

/-! ## Times -/

theorem isFigure_of_isDigit {c : Char} (h : c.isDigit = true) : isFigure c = true := by
  rw [isFigure, h]
  rfl

theorem isFigure_of_mem_fractionText {t : Timestamp} (h : t.nanosecond < 10 ^ 9) {c : Char}
    (hc : c ∈ t.fractionText.toList) : isFigure c = true := by
  rw [Timestamp.fractionText] at hc
  split at hc
  · cases hc
  · rw [String.toList_ofList, Timestamp.toList_padded h (by decide)] at hc
    rcases List.mem_cons.mp hc with rfl | hc
    · rfl
    · exact isFigure_of_isDigit (Timestamp.isDigit_of_mem_digitsAt (Timestamp.mem_of_mem_trimmed hc))

theorem isFigure_of_mem_digitsAt {width n : Nat} {c : Char} (h : c ∈ Timestamp.digitsAt width n) :
    isFigure c = true :=
  isFigure_of_isDigit (Timestamp.isDigit_of_mem_digitsAt h)

/-- The last character of an offset is a letter or a digit. -/
theorem offsetText_figures {t : Timestamp} (h : t.Proper) :
    ∃ before last, t.offsetText.toList = before ++ [last] ∧ (∀ c ∈ before, isFigure c = true)
      ∧ isFigure last = true ∧ last ≠ ':' := by
  have hoffset := h.offset
  rw [Timestamp.offsetText]
  split
  · exact ⟨[], 'Z', rfl, fun c hc => absurd hc List.not_mem_nil, rfl, by decide⟩
  · dsimp only
    rw [String.toList_append, String.toList_append, String.toList_append,
      Timestamp.toList_padded (by omega) (by decide), Timestamp.toList_padded (by omega) (by decide)]
    generalize t.offset.natAbs / 60 / 60 = hours
    generalize t.offset.natAbs / 60 % 60 = minutes
    have hlast : (Nat.digitChar (minutes % 10)).isDigit = true :=
      Timestamp.isDigit_of_mem_digitsAt (show _ ∈ Timestamp.digitsAt 1 minutes from List.mem_cons_self)
    have hsign : ∀ c ∈ (if t.offset < 0 then "-" else "+").toList, isFigure c = true := by
      split <;> exact List.all_eq_true.mp (by decide)
    refine ⟨_, Nat.digitChar (minutes % 10),
      (List.append_assoc _ (Timestamp.digitsAt 1 (minutes / 10)) [Nat.digitChar (minutes % 10)]).symm, ?_,
      isFigure_of_isDigit hlast, ?_⟩
    · simp only [List.forall_mem_append]
      exact ⟨⟨⟨hsign, fun c => isFigure_of_mem_digitsAt⟩, List.all_eq_true.mp (by decide)⟩, fun c => isFigure_of_mem_digitsAt⟩
    · intro he
      rw [he] at hlast
      cases hlast

/-- The characters of a time: a digit in front, and no colon at the end. -/
theorem text_figures {t : Timestamp} (h : t.Proper) :
    ∃ c cs, t.text.toList = c :: cs ∧ c.isDigit = true ∧ (∀ d ∈ c :: cs, isFigure d = true)
      ∧ (c :: cs).getLast? ≠ some ':' := by
  obtain ⟨before, last, hoffset, hbefore, hlast, hcolon⟩ := offsetText_figures h
  obtain ⟨c, cs, hyear⟩ : ∃ c cs, Timestamp.digitsAt 4 t.year = c :: cs :=
    List.exists_cons_of_ne_nil fun hnil => by
      have hlength := Timestamp.length_digitsAt 4 t.year
      rw [hnil] at hlength
      cases hlength
  have hfigures : ∀ d ∈ t.text.toList, isFigure d = true := by
    rw [Timestamp.toList_text h, hoffset]
    simp only [List.forall_mem_append, List.forall_mem_cons]
    have hdigits : ∀ width n, ∀ d ∈ Timestamp.digitsAt width n, isFigure d = true := fun width n d hd =>
      isFigure_of_mem_digitsAt hd
    exact ⟨hdigits _ _, rfl, hdigits _ _, rfl, hdigits _ _, rfl, hdigits _ _, rfl, hdigits _ _, rfl, hdigits _ _,
      fun d hd => isFigure_of_mem_fractionText h.nanosecond hd, hbefore, hlast, nofun⟩
  have hend : t.text.toList.getLast? = some last := by
    rw [Timestamp.toList_text h, hoffset]
    simp [List.getLast?_append, List.getLast?_cons]
  have hcons := Timestamp.toList_text h
  rw [hyear, List.cons_append] at hcons
  rw [hcons] at hfigures hend
  refine ⟨c, _, hcons, Timestamp.isDigit_of_mem_digitsAt (by rw [hyear]; exact List.mem_cons_self), hfigures, ?_⟩
  rw [hend]
  exact fun he => hcolon (Option.some.inj he)

theorem isFigure_of_mem_text {t : Timestamp} (h : t.Proper) {c : Char} (hc : c ∈ t.text.toList) :
    isFigure c = true := by
  obtain ⟨d, ds, hcons, -, hfigures, -⟩ := text_figures h
  exact hfigures c (hcons ▸ hc)

theorem readsAs_text {t : Timestamp} (h : t.Proper) : ReadsAs (t.text.toList ++ ['\n']) t.text.toList true := by
  obtain ⟨c, cs, hcons, hdigit, hfigures, hlast⟩ := text_figures h
  rw [hcons]
  exact readsAs_figures hfigures (.inl hdigit) hlast

/-- A time stands for itself. -/
theorem resolve_text {t : Timestamp} (h : t.Proper) (hnear : t.Near) : resolve true t.text = .time t := by
  obtain ⟨c, cs, hcons, hdigit, hfigures, -⟩ := text_figures h
  rw [resolve_figures (hcons ▸ hfigures) hcons (.inl hdigit), Timestamp.parseLenient?_text h hnear]
  rfl

end BlockWorld.Data.Yaml
