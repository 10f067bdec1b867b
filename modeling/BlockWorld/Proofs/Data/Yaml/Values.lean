import BlockWorld.Proofs.Data.Yaml.Lines
/-!
# Values of pairs as they are written

The writer chooses among the four ways to write a text by what the text looks like (`scalarLine_cases`).
Whichever it takes, the text comes back:

    ∃ plain, ReadsAs (scalarLine s).toList s.toList plain ∧ (plain = true → meansText s = true)

This is `Writable.readsAs_scalarLine`, where `plain` says whether the text stands without quotes. Such a
scalar could be taken for something else than a text, and the second half says that it is not.

## How the proof goes

`readsAs_plain`, `Quoting.readsAs` and `LiteralLine.readsAs` carry the three kinds of scalars over to the
lexer inside a mapping: the first character of the value decides which reader is called, and the tokens that
wait are left alone. Then the conditions under which the writer takes a way have to give those of the reader:
`plainText_of_fitsPlain` for texts without quotes, `visible_of_fitsSingleQuotes` for single quotes, nothing
for double quotes, where every character that is not shown is escaped.

`Writable` has what is left as a condition. Characters have one byte. A text with a line end in it may become
a literal block, and there it is only known to come back if the line end is the last character, behind a line
that is not empty and does not start with a tab.
-/
namespace BlockWorld.Data.Yaml

open Lexer

/-! ## The three styles -/

theorem removeKey_eq {l : Lexer} (h : l.InMapping) : l.removeKey = .ok l := by
  obtain ⟨k, hkeys, hgone⟩ := h.keys
  simp [removeKey, hkeys, hgone]

theorem saveKey_eq {l : Lexer} (h : l.keyAllowed = false) : l.saveKey = .ok l := by
  simp [saveKey, h]

/-- A value without quotes. -/
theorem readsAs_plain {v : List Char} (hv : PlainText v) {c : Char} {cs : List Char} (hcons : v = c :: cs)
    (hindicator : isIndicator c = false) (hopen : c = '-' ∨ c = '?' ∨ c = ':' → startsBlank cs = false) :
    ReadsAs (v ++ ['\n']) v true := by
  have hne : c ≠ ' ' := fun he => hv.first (by rw [hcons, he]; rfl)
  have hvisible := hv.visible c (by rw [hcons]; exact List.mem_cons_self) hne
  refine ⟨⟨c, cs ++ ['\n'], by rw [hcons]; rfl, hvisible.1, hvisible.2, ?_⟩, ?_⟩
  · rintro rfl
    cases hindicator
  · intro l d ds rest i line column h hallowed hrest hwritten hcursor hsize
    obtain ⟨rfl, rfl⟩ : c = d ∧ cs ++ ['\n'] = ds := by
      rw [hcons] at hwritten
      simpa using hwritten
    rw [List.append_assoc, List.singleton_append] at hcursor hsize
    have hfetch : l.fetchAt c (cs ++ ['\n'] ++ rest) = l.fetchPlain := by
      refine fetchAt_plain h.toSound (.inl (by rw [hcursor]; exact Nat.succ_ne_zero _)) hindicator (fun hc => ?_)
        hvisible
      rw [List.append_assoc]
      exact (startsBlank_append cs rest).trans (hopen hc)
    have hread := plainWords_text hrest.startsLine (show (0 : Int) < 1 by decide) hv
      (show v.length + 1 < l.size by simp at hsize; omega) [] [] false i line (Nat.succ_pos column)
    refine ⟨true, ⟨rest, i + v.length + 1, line + 1, 0⟩, .inl ⟨rfl, _, _, rfl⟩, ?_⟩
    rw [hfetch, fetchPlain, saveKey_eq hallowed]
    have hflow : decide (0 < l.flow) = false := by rw [h.flow]; rfl
    rw [hcons, List.cons_append] at hread
    simp [bind, Except.bind, hflow, plainScalar, h.indent, hcursor, hread, emitBare, hcons]

/-- A value in quotes. -/
theorem Quoting.readsAs {single : Bool} {write : Char → List Char} {v : List Char} (hv : Quoting single write v) :
    ReadsAs (quoteOf single :: (v.flatMap write ++ [quoteOf single, '\n'])) v false := by
  obtain ⟨-, -, hblank, hbreak⟩ := quote_ne single
  refine ⟨⟨_, _, rfl, hblank, hbreak, by cases single <;> decide⟩, ?_⟩
  intro l d ds rest i line column h hallowed hrest hwritten hcursor hsize
  obtain ⟨rfl, rfl⟩ : quoteOf single = d ∧ v.flatMap write ++ [quoteOf single, '\n'] = ds := by simpa using hwritten
  have hat : l.fetchAt (quoteOf single) (v.flatMap write ++ [quoteOf single, '\n'] ++ rest)
      = l.fetchQuoted single := by
    have hcolumn : l.cursor.column ≠ 0 := by rw [hcursor]; exact Nat.succ_ne_zero _
    cases single <;> simp [fetchAt, hcolumn, quoteOf]
  have hread := hv.quotedScalar_text rest
    (show (v.flatMap write).length + 1 < l.size by simp at hsize ⊢; omega) i line (column + 1)
  refine ⟨false, ⟨'\n' :: rest, i + 1 + (v.flatMap write).length + 1, line,
    column + 1 + 1 + (v.flatMap write).length + 1⟩, .inr ⟨_, _, _, rfl⟩, ?_⟩
  rw [List.append_assoc] at hcursor
  rw [hat, fetchQuoted, saveKey_eq hallowed]
  simp only [bind, Except.bind, hcursor]
  simp [hread, emit, Cursor.passLineComment, Cursor.isAt, Cursor.skip, isBlankChar]

/-- A text of one line as a literal block. -/
theorem LiteralLine.readsAs {w : List Char} (hw : LiteralLine w) :
    ReadsAs (literal (w ++ ['\n'])) (w ++ ['\n']) false := by
  have hliteral := hw.literal_line
  refine ⟨⟨_, _, hliteral, rfl, rfl, by decide⟩, ?_⟩
  intro l d ds rest i line column h hallowed hrest hwritten hcursor hsize
  obtain ⟨i', hread⟩ := hw.blockScalar_line i line hrest.startsLine
    (show 5 < l.size by rw [hliteral] at hsize; simp [scalarIndent] at hsize; omega) (column + 1)
  obtain rfl : '|' = d := by
    rw [hliteral] at hwritten
    exact (List.cons.inj hwritten).1
  rw [← List.cons_append, ← hwritten] at hcursor
  have hat : l.fetchAt '|' (ds ++ rest) = l.fetchBlockScalar true := by
    have hcolumn : l.cursor.column ≠ 0 := by rw [hcursor]; exact Nat.succ_ne_zero _
    simp [fetchAt, hcolumn, h.flow]
  refine ⟨true, ⟨rest, i', line + 2, 0⟩, .inl ⟨rfl, _, _, rfl⟩, ?_⟩
  rw [hat, fetchBlockScalar, removeKey_eq h]
  simp only [bind, Except.bind, hcursor, h.indent, hread, emitBare]

/-! ## Texts -/

/-- What a text may hold that a value is written from. A line end only counts as one if it is the last
character of a line that does not start with a tab. -/
structure Writable (s : String) : Prop where
  ascii : ∀ c ∈ s.toList, c.toNat < 128
  lines : '\n' ∈ s.toList → fitsLiteral s.toList = true → ∃ w, s.toList = w ++ ['\n'] ∧ LiteralLine w

/-- A scalar up to the end of its last line. -/
def ended (cs : List Char) : List Char := if cs.getLast?.any isBreak then cs else cs ++ ['\n']

theorem ended_concat {c : Char} (h : isBreak c = false) (cs : List Char) : ended (cs ++ [c]) = cs ++ [c, '\n'] := by
  rw [ended, List.getLast?_concat, Option.any_some, h, if_neg Bool.false_ne_true, List.append_assoc]
  rfl

theorem PlainText.ended {v : List Char} (h : PlainText v) : Yaml.ended v = v ++ ['\n'] := by
  have hlast := List.getLast_mem h.nonempty
  have hne : v.getLast h.nonempty ≠ ' ' := fun he =>
    h.last (by rw [List.getLast?_eq_some_getLast h.nonempty, he])
  rw [Yaml.ended, List.getLast?_eq_some_getLast h.nonempty, Option.any_some, (h.visible _ hlast hne).2,
    if_neg Bool.false_ne_true]

theorem ended_literal {w : List Char} (h : LiteralLine w) : ended (literal (w ++ ['\n'])) = literal (w ++ ['\n']) := by
  have hlast : literal (w ++ ['\n']) = '|' :: ((if w.head? = some ' ' then ['4'] else []) ++
      '\n' :: (scalarIndent ++ w)) ++ ['\n'] := by
    rw [h.literal_line]
    simp
  rw [ended, if_pos]
  rw [hlast, List.getLast?_concat]
  rfl

theorem isAscii_ended {cs : List Char} (h : ∀ c ∈ cs, IsAscii c) : ∀ c ∈ ended cs, IsAscii c := by
  intro c hc
  rw [ended] at hc
  split at hc
  · exact h c hc
  · obtain hc | hc := List.mem_append.mp hc
    · exact h c hc
    · rw [List.mem_singleton.mp hc]
      decide

theorem inDoubleQuotes_eq {cs : List Char} (h : ∀ c ∈ cs, c.toNat < 128) :
    inDoubleQuotes cs = '"' :: (cs.flatMap escaped ++ ['"']) := by
  have hmark : (cs.head? == some byteOrderMark) = false := by
    rw [beq_eq_false_iff_ne]
    intro hhead
    exact absurd (h _ (List.mem_of_head? hhead)) (by decide)
  simp only [inDoubleQuotes, hmark, Bool.not_false, Bool.and_true]
  rfl

/-- What is shown is visible, up to the line end and the space. -/
theorem visible_of_isShown {c : Char} (hc : c.toNat < 128) (hshown : isShown c = true) :
    IsAscii c ∧ (c ≠ '\n' → isBreak c = false ∧ (c ≠ ' ' → isBlankChar c = false)) := by
  have h := forall_ascii (p := fun c => isShown c →
    IsAscii c ∧ (c ≠ '\n' → isBreak c = false ∧ (c ≠ ' ' → isBlankChar c = false))) (by decide +kernel) hc
  exact decide_eq_true_iff.mp h hshown

theorem isAscii_escaped {c : Char} (hc : c.toNat < 128) : ∀ d ∈ escaped c, IsAscii d := by
  have h := forall_ascii (p := fun c => (escaped c).all fun d => IsAscii d) (by decide +kernel) hc
  simpa using h

theorem isAscii_doubled {c : Char} (hc : IsAscii c) : ∀ d ∈ doubled c, IsAscii d := by
  intro d hd
  rw [doubled] at hd
  split at hd
  · simp only [List.mem_cons, List.not_mem_nil, or_false, or_self] at hd
    rw [hd]
    decide
  · rw [List.mem_singleton.mp hd]
    exact hc

theorem isAscii_between {quote : Char} (hquote : IsAscii quote) {write : Char → List Char} {cs : List Char}
    (h : ∀ c ∈ cs, ∀ d ∈ write c, IsAscii d) : ∀ d ∈ quote :: (cs.flatMap write ++ [quote]), IsAscii d := by
  rw [List.forall_mem_cons, List.forall_mem_append, List.forall_mem_singleton]
  refine ⟨hquote, fun d hd => ?_, hquote⟩
  obtain ⟨c, hc, hd⟩ := List.mem_flatMap.mp hd
  exact h c hc d hd

theorem isShown_of_fitsPlain {cs : List Char} (h : fitsPlain cs = true) : ∀ c ∈ cs, isShown c = true := by
  intro c hc
  cases cs with
  | nil => cases hc
  | cons d ds =>
    rw [fitsPlain] at h
    simp only [Bool.and_eq_true_iff, List.all_eq_true] at h
    exact (h.1.1.1.1.1 c hc).1

theorem plainText_of_fitsPlain {c : Char} {cs : List Char} (h : fitsPlain (c :: cs) = true)
    (hascii : ∀ d ∈ c :: cs, d.toNat < 128) :
    PlainText (c :: cs) ∧ isIndicator c = false ∧ (c = '-' ∨ c = '?' ∨ c = ':' → startsBlank cs = false) := by
  rw [fitsPlain] at h
  simp only [Bool.and_eq_true_iff] at h
  obtain ⟨⟨⟨⟨⟨hshown, hfirst⟩, hlast⟩, -⟩, hstart⟩, hmarks⟩ := h
  rw [List.all_eq_true] at hshown
  rw [Bool.not_eq_true', Bool.or_eq_false_iff] at hstart
  refine ⟨⟨nofun, fun d hd hne => ?_, ?_, ?_, hmarks⟩, hstart.1, fun hc => ?_⟩
  · obtain ⟨hd', hbreak⟩ := Bool.and_eq_true_iff.mp (hshown d hd)
    rw [Bool.not_eq_true'] at hbreak
    have hline : d ≠ '\n' := by
      rintro rfl
      cases hbreak
    exact ⟨((visible_of_isShown (hascii d hd) hd').2 hline).2 hne, hbreak⟩
  · simpa using hfirst
  · simpa using hlast
  · have hsign : (c == '-' || c == '?' || c == ':') = true := by
      rcases hc with rfl | rfl | rfl <;> rfl
    simpa [hsign] using hstart.2

namespace Writable

variable {s : String} (h : Writable s)
include h

theorem readsAs_inDoubleQuotes : ReadsAs (ended (inDoubleQuotes s.toList)) s.toList false := by
  have hread := (quoting_escaped h.ascii).readsAs
  rw [inDoubleQuotes_eq h.ascii, ← List.cons_append, ended_concat (by decide)]
  simpa [quoteOf] using hread

theorem visible_of_fitsSingleQuotes (hline : '\n' ∉ s.toList) (hfits : fitsSingleQuotes s.toList = true) :
    ∀ c ∈ s.toList, isBreak c = false ∧ (c ≠ ' ' → isBlankChar c = false) := by
  rw [fitsSingleQuotes, Bool.and_eq_true_iff, Bool.and_eq_true_iff, List.all_eq_true] at hfits
  exact fun c hc => (visible_of_isShown (h.ascii c hc) (hfits.1.1 c hc)).2 fun he => hline (he ▸ hc)

theorem inSingleQuotes_eq (hline : '\n' ∉ s.toList) (hfits : fitsSingleQuotes s.toList = true) :
    inSingleQuotes s.toList = '\'' :: (s.toList.flatMap doubled ++ ['\'']) := by
  rw [inSingleQuotes, indentLines_of_unbroken _ fun c hc => (h.visible_of_fitsSingleQuotes hline hfits c hc).1]
  rfl

theorem readsAs_inSingleQuotes (hline : '\n' ∉ s.toList) (hfits : fitsSingleQuotes s.toList = true) :
    ReadsAs (ended (inSingleQuotes s.toList)) s.toList false := by
  have hvisible := h.visible_of_fitsSingleQuotes hline hfits
  have hread := (quoting_doubled fun c hc hne => ⟨(hvisible c hc).2 hne, (hvisible c hc).1⟩).readsAs
  rw [h.inSingleQuotes_eq hline hfits, ← List.cons_append, ended_concat (by decide)]
  simpa [quoteOf] using hread

theorem readsAs_unquoted (hmeans : meansText s = true) (hfits : fitsPlain s.toList = true) :
    ReadsAs (ended s.toList) s.toList true := by
  cases hs : s.toList with
  | nil =>
    obtain rfl : s = "" := String.toList_eq_nil_iff.mp hs
    cases hmeans
  | cons c cs =>
    rw [hs] at hfits
    obtain ⟨hplain, hindicator, hopen⟩ := plainText_of_fitsPlain hfits (hs ▸ h.ascii)
    rw [hplain.ended]
    exact readsAs_plain hplain rfl hindicator hopen

/-- The four ways to write a text. -/
theorem scalarLine_cases :
    (∃ w, s.toList = w ++ ['\n'] ∧ LiteralLine w ∧ fitsLiteral s.toList = true
        ∧ (scalarLine s).toList = literal s.toList)
      ∨ (scalarLine s).toList = ended (inDoubleQuotes s.toList)
      ∨ (meansText s = true ∧ fitsPlain s.toList = true ∧ (scalarLine s).toList = ended s.toList)
      ∨ ('\n' ∉ s.toList ∧ fitsSingleQuotes s.toList = true
        ∧ (scalarLine s).toList = ended (inSingleQuotes s.toList)) := by
  have hended : (scalarLine s).toList = ended (scalarChars s) := String.toList_ofList
  rw [hended, scalarChars]
  by_cases hline : '\n' ∈ s.toList
  · rw [if_pos (List.contains_iff_mem.mpr hline)]
    by_cases hfits : fitsLiteral s.toList = true
    · obtain ⟨w, hw, hliteral⟩ := h.lines hline hfits
      refine .inl ⟨w, hw, hliteral, hfits, ?_⟩
      rw [if_pos hfits, hw, ended_literal hliteral]
    · rw [if_neg hfits]
      exact .inr (.inl rfl)
  · rw [if_neg fun hc => hline (List.contains_iff_mem.mp hc)]
    by_cases hmeans : meansText s = true
    · rw [if_neg (by rw [hmeans]; exact Bool.false_ne_true)]
      by_cases hplain : fitsPlain s.toList = true
      · rw [if_pos hplain]
        exact .inr (.inr (.inl ⟨hmeans, hplain, rfl⟩))
      · rw [if_neg hplain]
        by_cases hsingle : fitsSingleQuotes s.toList = true
        · rw [if_pos hsingle]
          exact .inr (.inr (.inr ⟨hline, hsingle, rfl⟩))
        · rw [if_neg hsingle]
          exact .inr (.inl rfl)
    · rw [if_pos (by simpa using hmeans)]
      exact .inr (.inl rfl)

/-- A text is read from the lines it is written on. If it stands without quotes it stands for itself. -/
theorem readsAs_scalarLine :
    ∃ plain, ReadsAs (scalarLine s).toList s.toList plain ∧ (plain = true → meansText s = true) := by
  obtain ⟨w, hw, hliteral, -, heq⟩ | heq | ⟨hmeans, hplain, heq⟩ | ⟨hline, hsingle, heq⟩ := h.scalarLine_cases
  · exact ⟨false, by rw [heq, hw]; exact hliteral.readsAs, nofun⟩
  · exact ⟨false, by rw [heq]; exact h.readsAs_inDoubleQuotes, nofun⟩
  · exact ⟨true, by rw [heq]; exact h.readsAs_unquoted hmeans hplain, fun _ => hmeans⟩
  · exact ⟨false, by rw [heq]; exact h.readsAs_inSingleQuotes hline hsingle, nofun⟩

theorem isAscii_of_isShown {c : Char} (hc : c ∈ s.toList) (hshown : isShown c = true) : IsAscii c :=
  (visible_of_isShown (h.ascii c hc) hshown).1

theorem isAscii_of_fitsLiteral (hfits : fitsLiteral s.toList = true) : ∀ c ∈ s.toList, IsAscii c := by
  intro c hc
  rw [fitsLiteral, Bool.and_eq_true_iff, Bool.and_eq_true_iff, List.all_eq_true] at hfits
  obtain hshown | htab := Bool.or_eq_true_iff.mp (hfits.1.1 c hc)
  · exact h.isAscii_of_isShown hc hshown
  · rw [beq_iff_eq.mp htab]
    decide

theorem isAscii_of_fitsSingleQuotes (hfits : fitsSingleQuotes s.toList = true) : ∀ c ∈ s.toList, IsAscii c := by
  rw [fitsSingleQuotes, Bool.and_eq_true_iff, Bool.and_eq_true_iff, List.all_eq_true] at hfits
  exact fun c hc => h.isAscii_of_isShown hc (hfits.1.1 c hc)

/-- Only characters of one byte are written. -/
theorem isAscii_scalarLine : ∀ c ∈ (scalarLine s).toList, IsAscii c := by
  obtain ⟨w, hw, hliteral, hfits, heq⟩ | heq | ⟨-, hplain, heq⟩ | ⟨hline, hsingle, heq⟩ := h.scalarLine_cases
  · have hchars := h.isAscii_of_fitsLiteral hfits
    rw [hw] at hchars
    rw [heq, hw, hliteral.literal_line, List.forall_mem_cons, List.forall_mem_append, List.forall_mem_cons,
      List.forall_mem_append]
    refine ⟨by decide, ?_, by decide, isAscii_of_all (by decide), hchars⟩
    split <;> exact isAscii_of_all (by decide)
  · rw [heq, inDoubleQuotes_eq h.ascii]
    exact isAscii_ended (isAscii_between (by decide) fun c hc => isAscii_escaped (h.ascii c hc))
  · rw [heq]
    exact isAscii_ended fun c hc => h.isAscii_of_isShown hc (isShown_of_fitsPlain hplain c hc)
  · rw [heq, h.inSingleQuotes_eq hline hsingle]
    exact isAscii_ended (isAscii_between (by decide)
      fun c hc => isAscii_doubled (h.isAscii_of_fitsSingleQuotes hsingle c hc))

end Writable

end BlockWorld.Data.Yaml
