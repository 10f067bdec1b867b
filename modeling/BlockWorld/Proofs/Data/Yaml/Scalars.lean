import BlockWorld.Data.Yaml.Writer
import BlockWorld.Proofs.Data.Yaml.Source
/-!
# Scalars are read back as they are written

A text is written in one of four ways: as it is, between single quotes, between double quotes, or as a literal
block. For each of them the reader gives the text back, and says where it stands afterwards:

    without quotes      PlainText v               `plainWords_text`
    between quotes      Quoting single write v    `quotedScalar_text`
    as a block          LiteralLine w             `blockScalar_line`

## How the proof goes

The readers of scalars alternate between words and the blanks between them, with fuel for both. So texts are
taken apart in the same way: a text is a word, some spaces, and a rest that starts with another word or is
empty (`exists_word`). The proofs are inductions on the length of the text, one word and one gap at a time. A
gap is either the spaces before the next word (`Cursor.gap?_spaces`) or the end of the line
(`Cursor.gap?_newline`); the rest of the text meets the same conditions as the text did (`PlainText.more`,
`Quoting.more`).

Single and double quotes differ in how one character is written and in nothing else. `Quoting` says what the
words between quotes need of that: spaces stand for themselves, nothing else looks like a blank, and what is
written for a character is read as the character whatever follows. Doubling the quote is such a way
(`quoting_doubled`), and so is escaping (`quoting_escaped`), where the characters below 128 are gone through
once (`escaped_cases`).

A literal block is only needed for texts of one line with its line end. The block has this line and no other,
with an indentation that is given by a digit if the line starts with a space (`blockBreaks_line`,
`literal_line`).
-/
namespace BlockWorld.Data.Yaml

/-! ## Gaps -/

/-- What may come behind the line of a scalar: the end of the text, or a character that is neither a blank
nor a line end. -/
def StartsLine (rest : List Char) : Prop := ∀ c ∈ rest.head?, isBlankChar c = false ∧ isBreak c = false

theorem lineEnd?_of_not_isBreak {c : Char} (h : isBreak c = false) (rest : List Char) :
    lineEnd? (c :: rest) = none := by
  rw [lineEnd?.eq_def]
  split
  · rename_i heq
    cases heq
    cases h
  · rename_i heq
    cases heq
    rw [if_neg, h]
    · rfl
    · rintro (rfl | rfl) <;> cases h
  · rfl

theorem lineEnd?_newline (rest : List Char) : lineEnd? ('\n' :: rest) = some ('\n', 1, rest) := by
  rw [lineEnd?.eq_def]
  rfl

section Gaps

variable (indent : Int) (i line column : Nat)

/-- The spaces between two words. -/
theorem Cursor.gap?_spaces {x : Char} (hblank : isBlankChar x = false) (hbreak : isBreak x = false)
    (more : List Char) {n fuel : Nat} (hfuel : n < fuel) (done : List Char) :
    Cursor.gap? indent fuel done [] ⟨List.replicate n ' ' ++ x :: more, i, line, column⟩
      = some ⟨done ++ List.replicate n ' ', [], ⟨x :: more, i + n, line, column + n⟩⟩ := by
  induction n generalizing fuel done i column with
  | zero =>
    cases fuel with
    | zero => omega
    | succ fuel =>
      rw [Cursor.gap?]
      simp [hblank, lineEnd?_of_not_isBreak hbreak]
  | succ n ih =>
    cases fuel with
    | zero => omega
    | succ fuel =>
      rw [List.replicate_succ, List.cons_append, Cursor.gap?]
      simp only [show isBlankChar ' ' = true from rfl, if_true, List.isEmpty_nil, Cursor.skip,
        List.drop_one, List.tail_cons]
      rw [ih _ _ (by omega), List.append_assoc, List.singleton_append, Nat.add_assoc, Nat.add_assoc,
        Nat.add_comm 1 n]

/-- The line end behind a word. -/
theorem Cursor.gap?_newline {rest : List Char} (hrest : StartsLine rest) {fuel : Nat} (hfuel : 1 < fuel) :
    Cursor.gap? indent fuel [] [] ⟨'\n' :: rest, i, line, column⟩
      = some ⟨[], ['\n'], ⟨rest, i + 1, line + 1, 0⟩⟩ := by
  cases fuel with
  | zero => omega
  | succ fuel =>
    cases fuel with
    | zero => omega
    | succ fuel =>
      rw [Cursor.gap?]
      simp only [show isBlankChar '\n' = false from rfl, Bool.false_eq_true, if_false, lineEnd?_newline,
        Cursor.skipLine, List.nil_append]
      rw [Cursor.gap?]
      cases rest with
      | nil => rfl
      | cons c rest =>
        obtain ⟨hblank, hbreak⟩ := hrest c rfl
        simp [hblank, lineEnd?_of_not_isBreak hbreak]

end Gaps

/-! ## Words and spaces -/

/-- A text is a word, spaces, and the rest, which does not start with a space. -/
theorem exists_word (v : List Char) :
    ∃ word n more, v = word ++ (List.replicate n ' ' ++ more) ∧ ' ' ∉ word ∧ more.head? ≠ some ' '
      ∧ (more ≠ [] → 0 < n) := by
  obtain ⟨behind, hbehind⟩ : ∃ behind, v.dropWhile (· != ' ') = behind := ⟨_, rfl⟩
  have hspaces : behind.takeWhile (· == ' ')
      = List.replicate (behind.takeWhile (· == ' ')).length ' ' := by
    refine List.eq_replicate_of_mem fun c hc => ?_
    exact beq_iff_eq.mp (List.all_eq_true.mp (List.all_takeWhile (p := (· == ' '))) c hc)
  refine ⟨v.takeWhile (· != ' '), (behind.takeWhile (· == ' ')).length, behind.dropWhile (· == ' '),
    ?_, fun hmem => ?_, fun hhead => ?_, fun hmore => ?_⟩
  · rw [← hspaces, List.takeWhile_append_dropWhile, ← hbehind, List.takeWhile_append_dropWhile]
  · have hne := List.all_eq_true.mp (List.all_takeWhile (p := (· != ' '))) ' ' hmem
    simp at hne
  · have hnot := List.head?_dropWhile_not (· == ' ') behind
    rw [hhead] at hnot
    simp at hnot
  · cases behind with
    | nil => exact absurd rfl hmore
    | cons c behind =>
      have hnot := List.head?_dropWhile_not (· != ' ') v
      rw [hbehind] at hnot
      have hc : c = ' ' := by simpa using hnot
      rw [hc, List.takeWhile_cons_of_pos rfl]
      exact Nat.succ_pos _

theorem startsBlank_append (v rest : List Char) : startsBlank (v ++ '\n' :: rest) = startsBlank v := by
  cases v with
  | nil => rfl
  | cons c v => rfl

/-- Behind a space the rest of a text has no mark either. -/
theorem hasNoMark_of_append {blank : Bool} {before after : List Char}
    (h : hasNoMark blank (before ++ ' ' :: after) = true) : hasNoMark true after = true := by
  induction before generalizing blank with
  | nil =>
    rw [List.nil_append, hasNoMark] at h
    exact (Bool.and_eq_true_iff.mp h).2
  | cons c before ih =>
    rw [List.cons_append, hasNoMark] at h
    exact ih (Bool.and_eq_true_iff.mp h).2

/-! ## Plain scalars -/

/-- A text that can stand without quotes inside a line. -/
structure PlainText (v : List Char) : Prop where
  nonempty : v ≠ []
  visible : ∀ c ∈ v, c ≠ ' ' → isBlankChar c = false ∧ isBreak c = false
  first : v.head? ≠ some ' '
  last : v.getLast? ≠ some ' '
  marks : hasNoMark true v = true

theorem plainWord_word (rest : List Char) {blank : Bool} {word behind : List Char} (hword : ' ' ∉ word)
    (hvisible : ∀ c ∈ word, c ≠ ' ' → isBlankChar c = false ∧ isBreak c = false)
    (hmarks : hasNoMark blank (word ++ behind) = true) (hbehind : ∀ c ∈ behind.head?, c = ' ') :
    plainWord false (word ++ (behind ++ '\n' :: rest)) = word := by
  induction word generalizing blank with
  | nil =>
    cases behind with
    | nil => rfl
    | cons c behind =>
      rw [hbehind c rfl]
      rfl
  | cons c word ih =>
    have hne : c ≠ ' ' := fun he => hword (he ▸ List.mem_cons_self)
    obtain ⟨hblank, hbreak⟩ := hvisible c List.mem_cons_self hne
    rw [List.cons_append, hasNoMark, Bool.and_eq_true_iff, Bool.and_eq_true_iff] at hmarks
    obtain ⟨⟨hcolon, -⟩, hmarks⟩ := hmarks
    have hends := startsBlank_append (word ++ behind) rest
    rw [List.append_assoc] at hends
    rw [List.cons_append, plainWord, hends, hblank, hbreak,
      ih (fun hmem => hword (List.mem_cons_of_mem c hmem))
        (fun d hd => hvisible d (List.mem_cons_of_mem c hd)) hmarks]
    rw [Bool.not_eq_true'] at hcolon
    rw [hcolon]
    rfl

theorem isAtMarker_of_column {cs : List Char} {i line column : Nat} (h : 0 < column) :
    Cursor.isAtMarker ⟨cs, i, line, column⟩ = false := by
  rw [Cursor.isAtMarker, beq_eq_false_iff_ne.mpr (Nat.ne_of_gt h), Bool.false_and]

theorem skip_append (before after : List Char) (i line column : Nat) :
    Cursor.skip ⟨before ++ after, i, line, column⟩ before.length
      = ⟨after, i + before.length, line, column + before.length⟩ := by
  rw [Cursor.skip, List.drop_left]

theorem PlainText.more {word more : List Char} {n : Nat} (h : PlainText (word ++ (List.replicate n ' ' ++ more)))
    (hmore : more ≠ []) (hfirst : more.head? ≠ some ' ') (hn : 0 < n) : PlainText more where
  nonempty := hmore
  visible c hc := h.visible c (List.mem_append_right _ (List.mem_append_right _ hc))
  first := hfirst
  last := by
    have hlast := h.last
    rwa [← List.append_assoc, List.getLast?_append, List.getLast?_eq_some_getLast hmore, Option.some_or,
      ← List.getLast?_eq_some_getLast hmore] at hlast
  marks := by
    have hmarks := h.marks
    obtain ⟨n, rfl⟩ : ∃ k, n = k + 1 := ⟨n - 1, by omega⟩
    rw [List.replicate_succ', List.append_assoc, ← List.append_assoc] at hmarks
    exact hasNoMark_of_append hmarks

/-- A text that can stand without quotes starts with a word, and ends with one. -/
theorem PlainText.word {word more : List Char} {n : Nat} (h : PlainText (word ++ (List.replicate n ' ' ++ more)))
    (hn : more ≠ [] → 0 < n) :
    (∃ c behind, word = c :: behind ∧ c ≠ '#') ∧ (more = [] → n = 0) := by
  constructor
  · cases word with
    | nil =>
      exfalso
      cases n with
      | succ n => exact h.first rfl
      | zero =>
        by_cases hmore : more = []
        · exact h.nonempty (by rw [hmore]; rfl)
        · exact absurd (hn hmore) (Nat.lt_irrefl 0)
    | cons c behind =>
      refine ⟨c, behind, rfl, ?_⟩
      rintro rfl
      have hmarks := h.marks
      rw [List.cons_append, hasNoMark] at hmarks
      simp at hmarks
  · rintro rfl
    cases n with
    | zero => rfl
    | succ n =>
      have hlast := h.last
      rw [List.append_nil, List.replicate_succ', ← List.append_assoc, List.getLast?_concat] at hlast
      exact absurd rfl hlast

/-- The words of a plain scalar are read up to the end of its line. -/
theorem plainWords_text {rest : List Char} (hrest : StartsLine rest) {indent : Int} (hindent : 0 < indent)
    {v : List Char} (hv : PlainText v) {fuel : Nat} (hfuel : v.length + 1 < fuel) (done joint : List Char)
    (crossed : Bool) (i line : Nat) {column : Nat} (hcolumn : 0 < column) :
    plainWords false indent fuel done joint crossed ⟨v ++ '\n' :: rest, i, line, column⟩
      = .ok ⟨done.reverse ++ joint ++ v, true, ⟨rest, i + v.length + 1, line + 1, 0⟩⟩ := by
  induction fuel generalizing v done joint crossed i column with
  | zero => omega
  | succ fuel ih =>
    obtain ⟨word, n, more, rfl, hword, hmore, hpos⟩ := exists_word v
    obtain ⟨⟨c, behind, hcons, hmark⟩, hend⟩ := hv.word hpos
    have hspaces : ∀ c ∈ (List.replicate n ' ' ++ more).head?, c = ' ' := by
      cases n with
      | succ n => rintro c ⟨⟩; rfl
      | zero =>
        by_cases hnil : more = []
        · rw [hnil]; rintro c ⟨⟩
        · exact absurd (hpos hnil) (Nat.lt_irrefl 0)
    have hread := plainWord_word rest hword (fun c hc => hv.visible c (List.mem_append_left _ hc))
      hv.marks hspaces
    have hstart : Cursor.isAt ⟨word ++ (List.replicate n ' ' ++ more ++ '\n' :: rest), i, line, column⟩ '#'
        = false := by
      rw [hcons, Cursor.isAt]
      simpa using hmark
    rw [List.append_assoc, plainWords, isAtMarker_of_column hcolumn, hstart]
    simp only [Bool.or_self, Bool.false_eq_true, if_false]
    rw [hread, hcons]
    dsimp only
    rw [← hcons, skip_append]
    have hlength : 0 < word.length := by rw [hcons]; exact Nat.succ_pos _
    by_cases hnil : more = []
    · obtain rfl := hend hnil
      subst hnil
      simp only [List.replicate_zero, List.nil_append, List.append_nil] at hfuel ⊢
      rw [Cursor.gap?_newline indent _ _ _ hrest (by omega)]
      simp [hindent]
    · obtain ⟨x, more, rfl⟩ := List.exists_cons_of_ne_nil hnil
      have hn := hpos hnil
      have hv' := hv.more hnil hmore hn
      obtain ⟨hblank, hbreak⟩ := hv'.visible x List.mem_cons_self fun he => hmore (by rw [he]; rfl)
      rw [List.append_assoc, List.cons_append, Cursor.gap?_spaces indent _ _ _ hblank hbreak _ (by simp at hfuel; omega)]
      simp only [List.nil_append, List.isEmpty_nil, Bool.not_true, Bool.and_false, Bool.false_and,
        Bool.false_eq_true, if_false, Gap.joint]
      rw [← List.cons_append, ih hv' (by simp at hfuel ⊢; omega) _ _ _ _ (by omega)]
      simp [List.append_assoc]
      omega

/-! ## Quoted scalars -/

/-- The quote on both sides of a scalar. -/
def quoteOf (single : Bool) : Char := if single then '\'' else '"'

/-- A way to write the characters of a text between quotes, one by one. Spaces stand for themselves, nothing
else starts with a blank or a line end, and a word is read back up to a space or to the closing quote, behind
which there is no other quote. -/
structure Quoting (single : Bool) (write : Char → List Char) (v : List Char) : Prop where
  space : write ' ' = [' ']
  start : ∀ c ∈ v, c ≠ ' ' →
    ∃ d ds, write c = d :: ds ∧ isBlankChar d = false ∧ isBreak d = false
  read : ∀ word ⊆ v, ' ' ∉ word → ∀ x more fuel,
    x = ' ' ∨ x = quoteOf single ∧ more.head? ≠ some '\'' → (word.flatMap write).length < fuel →
    quotedWord fuel single (word.flatMap write ++ x :: more) = .ok (word, (word.flatMap write).length)

namespace Quoting

variable {single : Bool} {write : Char → List Char} {v : List Char}

theorem more {v' : List Char} (h : Quoting single write v) (hsub : v' ⊆ v) : Quoting single write v' where
  space := h.space
  start c hc := h.start c (hsub hc)
  read word hword := h.read word fun _ hc => hsub (hword hc)

theorem flatMap_spaces (h : Quoting single write v) (n : Nat) :
    (List.replicate n ' ').flatMap write = List.replicate n ' ' := by
  induction n with
  | zero => rfl
  | succ n ih => rw [List.replicate_succ, List.flatMap_cons, h.space, ih]; rfl

theorem quote_ne (single : Bool) : quoteOf single ≠ ' ' ∧ quoteOf single ≠ '\\'
    ∧ isBlankChar (quoteOf single) = false ∧ isBreak (quoteOf single) = false := by
  cases single <;> decide

/-- What comes behind the spaces inside quotes. -/
theorem start_of_more (h : Quoting single write v) (behind : List Char) (hfirst : v.head? ≠ some ' ') :
    ∃ x xs, v.flatMap write ++ quoteOf single :: behind = x :: xs ∧ isBlankChar x = false
      ∧ isBreak x = false := by
  obtain ⟨-, -, hblank, hbreak⟩ := quote_ne single
  cases v with
  | nil => exact ⟨_, _, rfl, hblank, hbreak⟩
  | cons c v =>
    obtain ⟨d, ds, hwrite, hd⟩ := h.start c List.mem_cons_self fun he => hfirst (by rw [he]; rfl)
    rw [List.flatMap_cons, hwrite]
    exact ⟨d, _, rfl, hd⟩

/-- What comes behind a word inside quotes. -/
theorem start_of_spaces (h : Quoting single write v) {n : Nat} (hfirst : v.head? ≠ some ' ')
    (hn : v ≠ [] → 0 < n) (rest : List Char) :
    ∃ x xs, List.replicate n ' ' ++ (v.flatMap write ++ quoteOf single :: '\n' :: rest) = x :: xs
      ∧ (x = ' ' ∨ x = quoteOf single ∧ xs.head? ≠ some '\'') := by
  cases n with
  | succ n => exact ⟨' ', _, rfl, .inl rfl⟩
  | zero =>
    by_cases hnil : v = []
    · subst hnil
      exact ⟨quoteOf single, '\n' :: rest, rfl, .inr ⟨rfl, by simp⟩⟩
    · exact absurd (hn hnil) (Nat.lt_irrefl 0)

/-- The words of a quoted scalar are read up to the closing quote. -/
theorem quotedWords_text (hv : Quoting single write v) {rest : List Char} {fuel : Nat}
    (hfuel : (v.flatMap write).length + 1 < fuel) (done : List Char) (i line : Nat) {column : Nat}
    (hcolumn : 0 < column) :
    quotedWords single fuel done
        ⟨v.flatMap write ++ quoteOf single :: '\n' :: rest, i, line, column⟩
      = .ok ⟨done.reverse ++ v, false,
        ⟨'\n' :: rest, i + (v.flatMap write).length + 1, line, column + (v.flatMap write).length + 1⟩⟩ := by
  induction fuel generalizing v done i column with
  | zero => omega
  | succ fuel ih =>
    obtain ⟨word, n, more, rfl, hword, hmore, hpos⟩ := exists_word v
    have hsub : more ⊆ word ++ (List.replicate n ' ' ++ more) := fun c hc =>
      List.mem_append_right _ (List.mem_append_right _ hc)
    have hv' := hv.more hsub
    rw [List.flatMap_append, List.flatMap_append, hv.flatMap_spaces n] at hfuel ⊢
    rw [List.length_append, List.length_append, List.length_replicate] at hfuel ⊢
    obtain ⟨x, xs, hx, hstop⟩ := hv'.start_of_spaces hmore hpos rest
    have hread := hv.read word (List.subset_append_left ..) hword x xs fuel hstop (by omega)
    rw [← hx] at hread
    rw [List.append_assoc, List.append_assoc, quotedWords, isAtMarker_of_column hcolumn]
    have hsome : (word.flatMap write ++ (List.replicate n ' ' ++ (more.flatMap write ++
        quoteOf single :: '\n' :: rest))).isEmpty = false := by
      simp
    simp only [Bool.false_or, hsome, Bool.false_eq_true, if_false]
    rw [hread]
    dsimp only
    rw [skip_append]
    by_cases hn : n = 0
    · subst hn
      have hnil : more = [] := Decidable.byContradiction fun hne => Nat.lt_irrefl 0 (hpos hne)
      subst hnil
      simp [Cursor.isAt, Cursor.skip, quoteOf]
    · obtain ⟨y, ys, hy, hblank, hbreak⟩ := hv'.start_of_more ('\n' :: rest) hmore
      obtain ⟨k, rfl⟩ := Nat.exists_eq_succ_of_ne_zero hn
      have hat : ∀ q, q ≠ ' ' → ∀ i' column', Cursor.isAt ⟨List.replicate (k + 1) ' ' ++ (more.flatMap write ++
          quoteOf single :: '\n' :: rest), i', line, column'⟩ q = false := by
        intro q hq i' column'
        rw [List.replicate_succ, Cursor.isAt]
        simpa using fun he => hq he.symm
      rw [show (if single = true then '\'' else '"') = quoteOf single from rfl,
        hat _ (quote_ne single).1, hat _ (by decide)]
      simp only [Bool.and_false, Bool.false_eq_true, if_false]
      rw [hy, Cursor.gap?_spaces 0 _ _ _ hblank hbreak _ (by omega), ← hy]
      simp only [Gap.joint, List.nil_append]
      rw [ih hv' (by omega) _ _ (by omega)]
      simp [List.append_assoc]
      omega

/-- A quoted scalar is read up to the end of its line. -/
theorem quotedScalar_text (hv : Quoting single write v) (rest : List Char) {fuel : Nat}
    (hfuel : (v.flatMap write).length + 1 < fuel) (i line column : Nat) :
    quotedScalar fuel single
        ⟨quoteOf single :: (v.flatMap write ++ quoteOf single :: '\n' :: rest), i, line, column⟩
      = .ok ⟨v, false,
        ⟨'\n' :: rest, i + 1 + (v.flatMap write).length + 1, line, column + 1 + (v.flatMap write).length + 1⟩⟩ :=
  hv.quotedWords_text hfuel [] (i + 1) line (Nat.succ_pos column)

end Quoting

/-! ## Single quotes -/

/-- A character between single quotes. -/
def doubled (c : Char) : List Char := if c = '\'' then ['\'', '\''] else [c]

theorem singleQuotedWord_cons {c : Char} (hquote : c ≠ '\'') (hblank : isBlankChar c = false)
    (hbreak : isBreak c = false) (rest : List Char) :
    singleQuotedWord (c :: rest) = (c :: (singleQuotedWord rest).1, (singleQuotedWord rest).2 + 1) := by
  rw [singleQuotedWord.eq_def]
  split
  · rename_i heq; cases heq; exact absurd rfl hquote
  · rename_i heq; cases heq; exact absurd rfl hquote
  · rename_i heq; cases heq; rw [hblank, hbreak]; rfl
  · rename_i heq; cases heq

theorem singleQuotedWord_quote {more : List Char} (hmore : more.head? ≠ some '\'') :
    singleQuotedWord ('\'' :: more) = ([], 0) := by
  cases more with
  | nil => rfl
  | cons c more =>
    rw [singleQuotedWord.eq_def]
    split
    · rename_i heq; cases heq; exact absurd rfl hmore
    · rfl
    · rename_i hne heq; cases heq; exact (hne rfl).elim
    · rename_i heq; cases heq

theorem quoting_doubled {v : List Char}
    (hv : ∀ c ∈ v, c ≠ ' ' → isBlankChar c = false ∧ isBreak c = false) : Quoting true doubled v where
  space := rfl
  start c hc hne := by
    by_cases hquote : c = '\''
    · subst hquote
      exact ⟨'\'', ['\''], rfl, rfl, rfl⟩
    · exact ⟨c, [], if_neg hquote, hv c hc hne⟩
  read word hsub hspace x more fuel hstop hfuel := by
    suffices hread : singleQuotedWord (word.flatMap doubled ++ x :: more)
        = (word, (word.flatMap doubled).length) by
      rw [quotedWord, if_pos rfl, hread]
    clear hfuel
    induction word with
    | nil =>
      obtain rfl | ⟨rfl, hmore⟩ := hstop
      · rfl
      · exact singleQuotedWord_quote hmore
    | cons c word ih =>
      have hword := ih (fun d hd => hsub (List.mem_cons_of_mem c hd))
        fun hmem => hspace (List.mem_cons_of_mem c hmem)
      rw [List.flatMap_cons, List.append_assoc]
      by_cases hquote : c = '\''
      · subst hquote
        rw [doubled, if_pos rfl, List.cons_append, List.cons_append, List.nil_append, singleQuotedWord, hword]
        simp
      · obtain ⟨hblank, hbreak⟩ := hv c (hsub List.mem_cons_self)
          fun he => hspace (he ▸ List.mem_cons_self)
        rw [doubled, if_neg hquote, List.singleton_append, singleQuotedWord_cons hquote hblank hbreak, hword]
        simp

theorem indentLines_of_unbroken (write : Char → List Char) {v : List Char}
    (hv : ∀ c ∈ v, isBreak c = false) : indentLines write false v = v.flatMap write := by
  induction v with
  | nil => rfl
  | cons c v ih =>
    rw [indentLines, hv c List.mem_cons_self, ih fun d hd => hv d (List.mem_cons_of_mem c hd)]
    rfl

/-! ## Double quotes -/

/-- A character between double quotes. -/
def escaped (c : Char) : List Char := if standsInQuotes c then [c] else escapeChar c

theorem escape?_append {e : List Char} {c : Char} (h : escape? e = some (c, e.length)) (more : List Char) :
    escape? (e ++ more) = some (c, e.length) := by
  cases e with
  | nil => cases h
  | cons x rest =>
    rw [List.cons_append, escape?] at *
    cases hwidth : escapeWidth? x with
    | none => rwa [hwidth] at h
    | some width =>
      rw [hwidth] at h
      dsimp only at h ⊢
      obtain ⟨d, hd, heq⟩ := Option.map_eq_some_iff.mp h
      obtain ⟨rfl, rfl⟩ : d = c ∧ width = rest.length := by simpa using heq
      rw [numericEscape?, List.take_length] at hd
      rw [numericEscape?, List.take_left, hd]
      rfl

/-- The characters below 128 between double quotes. -/
theorem escaped_cases {c : Char} (hc : c.toNat < 128) :
    escaped c = [c] ∧ (c ≠ ' ' → isBlankChar c = false) ∧ isBreak c = false ∧ c ≠ '"' ∧ c ≠ '\\'
      ∨ ∃ e, escaped c = '\\' :: e ∧ escape? e = some (c, e.length) ∧ e.head?.any isBreak = false := by
  have h := forall_ascii (p := fun c =>
    (escaped c = [c] ∧ (c ≠ ' ' → isBlankChar c = false) ∧ isBreak c = false ∧ c ≠ '"' ∧ c ≠ '\\')
      || escaped c == '\\' :: (escaped c).tail && escape? (escaped c).tail == some (c, (escaped c).tail.length)
        && (escaped c).tail.head?.any isBreak == false) (by decide +kernel) hc
  rw [Bool.or_eq_true_iff, decide_eq_true_iff, Bool.and_eq_true_iff, Bool.and_eq_true_iff, beq_iff_eq, beq_iff_eq,
    beq_iff_eq] at h
  exact h.imp_right fun ⟨⟨hcons, hescape⟩, hbreak⟩ => ⟨_, hcons, hescape, hbreak⟩

theorem doubleQuotedWord_cons {c : Char} (hblank : isBlankChar c = false) (hbreak : isBreak c = false)
    (hquote : c ≠ '"') (hslash : c ≠ '\\') {fuel n : Nat} {rest word : List Char}
    (h : doubleQuotedWord fuel rest = .ok (word, n)) :
    doubleQuotedWord (fuel + 1) (c :: rest) = .ok (c :: word, n + 1) := by
  rw [doubleQuotedWord, hblank, hbreak]
  simp only [hquote, hslash, Bool.or_self, decide_false, Bool.false_eq_true, if_false]
  rw [h]
  rfl

theorem doubleQuotedWord_escape {e : List Char} {c : Char} (hescape : escape? e = some (c, e.length))
    (hjoin : e.head?.any isBreak = false) {fuel n : Nat} {rest word : List Char}
    (h : doubleQuotedWord fuel rest = .ok (word, n)) :
    doubleQuotedWord (fuel + 1) ('\\' :: (e ++ rest)) = .ok (c :: word, n + e.length + 1) := by
  have hfirst : (e ++ rest).head?.any isBreak = false := by
    cases e with
    | nil => cases hescape
    | cons d e => exact hjoin
  rw [doubleQuotedWord, hfirst, escape?_append hescape]
  simp only [show isBlankChar '\\' = false from rfl, show isBreak '\\' = false from rfl, Bool.or_self,
    show ¬ '\\' = '"' by decide, decide_false, Bool.false_eq_true, if_false, if_true, List.drop_left]
  rw [h]
  rfl

theorem quoting_escaped {v : List Char} (hv : ∀ c ∈ v, c.toNat < 128) : Quoting false escaped v where
  space := by decide
  start c hc hne := by
    obtain ⟨hone, hblank, hbreak, -⟩ | ⟨e, hcons, -⟩ := escaped_cases (hv c hc)
    · exact ⟨c, [], hone, hblank hne, hbreak⟩
    · exact ⟨'\\', e, hcons, rfl, rfl⟩
  read word hsub hspace x more fuel hstop hfuel := by
    rw [quotedWord, if_neg Bool.false_ne_true]
    induction word generalizing fuel with
    | nil =>
      cases fuel with
      | zero => simp at hfuel
      | succ fuel =>
        obtain rfl | ⟨rfl, -⟩ := hstop
        · rfl
        · rfl
    | cons c word ih =>
      have hread := ih (fun d hd => hsub (List.mem_cons_of_mem c hd))
        fun hmem => hspace (List.mem_cons_of_mem c hmem)
      have hne : c ≠ ' ' := fun he => hspace (he ▸ List.mem_cons_self)
      rw [List.flatMap_cons, List.length_append] at hfuel
      rw [List.flatMap_cons, List.append_assoc, List.length_append]
      cases fuel with
      | zero => omega
      | succ fuel =>
        obtain ⟨hone, hblank, hbreak, hquote, hslash⟩ | ⟨e, hcons, hescape, hjoin⟩ :=
          escaped_cases (hv c (hsub List.mem_cons_self))
        · rw [hone, List.length_singleton] at hfuel
          rw [hone, List.singleton_append, List.length_singleton,
            doubleQuotedWord_cons (hblank hne) hbreak hquote hslash (hread fuel (by omega)), Nat.add_comm]
        · rw [hcons, List.length_cons] at hfuel
          rw [hcons, List.cons_append, List.length_cons,
            doubleQuotedWord_escape hescape hjoin (hread fuel (by omega)), Nat.add_assoc, Nat.add_comm]

/-! ## Literal blocks -/

section Blocks

variable (i line : Nat)

theorem skipIndent_spaces {indent : Nat} {x : Char} {more : List Char} {n fuel : Nat} (hfuel : n < fuel)
    {column : Nat} (hinside : ∀ k < n, isIndentation indent (column + k) = true)
    (hstop : x = ' ' → isIndentation indent (column + n) = false) :
    Cursor.skipIndent indent fuel ⟨List.replicate n ' ' ++ x :: more, i, line, column⟩
      = ⟨x :: more, i + n, line, column + n⟩ := by
  induction n generalizing fuel i column with
  | zero =>
    cases fuel with
    | zero => omega
    | succ fuel =>
      rw [Cursor.skipIndent]
      by_cases hx : x = ' '
      · have hend := hstop hx
        rw [Nat.add_zero] at hend
        simp [hend]
      · simp [Cursor.isAt, hx]
  | succ n ih =>
    cases fuel with
    | zero => omega
    | succ fuel =>
      have hhere := hinside 0 (Nat.succ_pos n)
      rw [Nat.add_zero] at hhere
      rw [Cursor.skipIndent, hhere, List.replicate_succ]
      simp only [Cursor.isAt, List.cons_append, List.head?_cons, beq_self_eq_true, Bool.and_self, if_true,
        Cursor.skip, List.drop_one, List.tail_cons]
      rw [ih _ (by omega) (fun k hk => by rw [Nat.add_assoc]; exact hinside _ (by omega))
        (fun hx => by rw [Nat.add_assoc, Nat.add_comm 1 n]; exact hstop hx)]
      simp only [Nat.add_assoc, Nat.add_comm 1 n]

/-- Behind the last line of a block there is nothing to pass. -/
theorem blockBreaks_rest {rest : List Char} (hrest : StartsLine rest) (indent : Nat) {fuel : Nat}
    (hfuel : 1 < fuel) (breaks : List Char) (deepest : Nat) :
    blockBreaks indent fuel breaks deepest ⟨rest, i, line, 0⟩
      = .ok (breaks, deepest, ⟨rest, i, line, 0⟩) := by
  cases fuel with
  | zero => omega
  | succ fuel =>
    cases fuel with
    | zero => omega
    | succ fuel =>
      cases rest with
      | nil => simp [blockBreaks, Cursor.skipIndent, Cursor.isAt, lineEnd?]
      | cons c rest =>
        obtain ⟨hblank, hbreak⟩ := hrest c rfl
        rw [isBlankChar, Bool.or_eq_false_iff, beq_eq_false_iff_ne, beq_eq_false_iff_ne] at hblank
        simp [blockBreaks, Cursor.skipIndent, Cursor.isAt, hblank.1, hblank.2,
          lineEnd?_of_not_isBreak hbreak]

end Blocks

/-- A line of a literal block. -/
structure LiteralLine (w : List Char) : Prop where
  nonempty : w ≠ []
  unbroken : ∀ c ∈ w, isBreak c = false
  first : w.head? ≠ some '\t'

namespace LiteralLine

variable {w : List Char} (h : LiteralLine w) {rest : List Char} (i line : Nat)
include h

variable (rest) in
/-- The indentation of the line, whether the header gives it or not. -/
theorem blockBreaks_line {given : Nat} (hgiven : given = 4 ∨ given = 0 ∧ w.head? ≠ some ' ') {fuel : Nat}
    (hfuel : 5 < fuel) :
    blockBreaks given fuel [] 0 ⟨scalarIndent ++ (w ++ '\n' :: rest), i, line, 0⟩
      = .ok ([], 4, ⟨w ++ '\n' :: rest, i + 4, line, 4⟩) := by
  obtain ⟨c, w, rfl⟩ := List.exists_cons_of_ne_nil h.nonempty
  have hbreak := h.unbroken c List.mem_cons_self
  have htab : c ≠ '\t' := fun he => h.first (by rw [he]; rfl)
  cases fuel with
  | zero => omega
  | succ fuel =>
    have hskip : Cursor.skipIndent given fuel ⟨List.replicate 4 ' ' ++ c :: (w ++ '\n' :: rest), i, line, 0⟩
        = ⟨c :: (w ++ '\n' :: rest), i + 4, line, 0 + 4⟩ := skipIndent_spaces i line (by omega)
      (fun k hk => by
        obtain rfl | ⟨rfl, -⟩ := hgiven
        · simp [isIndentation]
          omega
        · simp [isIndentation])
      (fun hc => by
        obtain rfl | ⟨rfl, hne⟩ := hgiven
        · rfl
        · exact absurd (by rw [hc]; rfl) hne)
    rw [blockBreaks, scalarIndent, show [' ', ' ', ' ', ' '] = List.replicate 4 ' ' from rfl, List.cons_append,
      hskip]
    simp [Cursor.isAt, htab, lineEnd?_of_not_isBreak hbreak]

theorem takeWhile_line : (w ++ '\n' :: rest).takeWhile (fun c => !isBreak c) = w := by
  rw [List.takeWhile_append_of_pos fun c hc => by rw [h.unbroken c hc]; rfl]
  simp [isBreak]

/-- The line is the whole block. -/
theorem blockLines_line (hrest : StartsLine rest) {fuel : Nat} (hfuel : 3 < fuel) :
    blockLines true 4 fuel [] [] [] false ⟨w ++ '\n' :: rest, i, line, 4⟩
      = .ok (w, ['\n'], [], ⟨rest, i + w.length + 1, line + 1, 0⟩) := by
  cases fuel with
  | zero => omega
  | succ fuel =>
    cases fuel with
    | zero => omega
    | succ fuel =>
      have hafter : Cursor.toLineEnd ⟨w ++ '\n' :: rest, i, line, 4⟩
          = ⟨'\n' :: rest, i + w.length, line, 4 + w.length⟩ := by
        rw [Cursor.toLineEnd, Cursor.skipWhile, h.takeWhile_line, skip_append]
      rw [blockLines, hafter, h.takeWhile_line]
      simp only [lineEnd?_newline, Cursor.skipLine]
      rw [blockBreaks_rest _ _ hrest 4 (by omega)]
      simp [blockLines]

/-- The digit of the indentation, which a line has to give that starts with a space. -/
theorem literal_line : literal (w ++ ['\n'])
    = '|' :: ((if w.head? = some ' ' then ['4'] else []) ++ '\n' :: (scalarIndent ++ (w ++ ['\n']))) := by
  obtain ⟨before, d, rfl⟩ : ∃ before d, w = before ++ [d] :=
    ⟨w.dropLast, w.getLast h.nonempty, (List.dropLast_concat_getLast h.nonempty).symm⟩
  have hlast := h.unbroken d (List.mem_append_right _ List.mem_cons_self)
  obtain ⟨c, w, hcons⟩ := List.exists_cons_of_ne_nil h.nonempty
  have hc : isBreak c = false := h.unbroken c (by rw [hcons]; exact List.mem_cons_self)
  have hlines : indentLines (fun c => [c]) false (w ++ ['\n']) = w ++ ['\n'] := by
    have hw : ∀ c ∈ w, isBreak c = false := fun c hc =>
      h.unbroken c (by rw [hcons]; exact List.mem_cons_of_mem _ hc)
    clear h hcons
    induction w with
    | nil => rfl
    | cons c w ih =>
      rw [List.cons_append, indentLines, hw c List.mem_cons_self,
        ih fun d hd => hw d (List.mem_cons_of_mem c hd)]
      rfl
  have hheader : literalHeader (before ++ [d] ++ ['\n'])
      = '|' :: (if (before ++ [d]).head? = some ' ' then ['4'] else []) := by
    have hreverse : (before ++ [d] ++ ['\n']).reverse = '\n' :: d :: before.reverse := by simp
    rw [literalHeader, hreverse, hcons]
    simp [hc, hlast, show isBreak '\n' = true from rfl]
  have hstart : startsBreak (before ++ [d] ++ ['\n']) = false := by
    rw [hcons]
    exact hc
  rw [literal, hheader, hstart, hcons, List.cons_append, indentLines.eq_def]
  simp [hc, hlines]

/-- A literal block of one line with its line end. -/
theorem blockScalar_line (hrest : StartsLine rest) {fuel : Nat} (hfuel : 5 < fuel) (column : Nat) :
    ∃ i', blockScalar fuel true 0 ⟨literal (w ++ ['\n']) ++ rest, i, line, column⟩
      = .ok ⟨w ++ ['\n'], true, ⟨rest, i', line + 2, 0⟩⟩ := by
  rw [h.literal_line]
  have hlines := fun i => h.blockLines_line i (line + 1) hrest (show 3 < fuel by omega)
  by_cases hspace : w.head? = some ' '
  · have hbreaks := fun i => h.blockBreaks_line rest i (line + 1) (.inl rfl) hfuel
    refine ⟨i + 1 + 1 + 1 + 4 + w.length + 1, ?_⟩
    rw [if_pos hspace, blockScalar]
    simp [blockHeader, chomping?, increment?, Char.isDigit, Cursor.skip, Cursor.skipWhile, Cursor.isAt,
      Cursor.skipLine, lineEnd?_newline, startsBreak, isBlankChar, isBreak, hbreaks, hlines, bind, Except.bind]
  · have hbreaks := fun i => h.blockBreaks_line rest i (line + 1) (.inr ⟨rfl, hspace⟩) hfuel
    refine ⟨i + 1 + 1 + 4 + w.length + 1, ?_⟩
    rw [if_neg hspace, blockScalar]
    simp [blockHeader, chomping?, increment?, Char.isDigit, Cursor.skip, Cursor.skipWhile, Cursor.isAt,
      Cursor.skipLine, lineEnd?_newline, startsBreak, isBlankChar, isBreak, hbreaks, hlines, bind, Except.bind]

end LiteralLine

end BlockWorld.Data.Yaml
