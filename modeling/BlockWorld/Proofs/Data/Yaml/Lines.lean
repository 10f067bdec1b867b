import BlockWorld.Proofs.Data.Yaml.Scalars
/-!
# Mappings with one line for each pair

A record is written as lines `name: value`. Its text is cut into the tokens of its pairs, one pair after the
other:

    tokens source = .blockMappingStart :: (lines.flatMap tokens ++ [.blockEnd, .textEnd])

for a source with the characters of the lines (`tokens_flatMap`). What stands behind the colon is left open
here: `ReadsAs` says that a value, up to the end of its last line, is read as one scalar, and `Line.Good` asks
it of every line.

## How the proof goes

The lexer only knows that a name is a key when it comes to the colon behind it. Until then the token of the
name waits, and it is given out late: a name when its value is fetched, a value when the next name has been.
So the invariant follows the lexer through three states.

* Before the first name: `run_start` fetches the name and the colon, which starts the mapping.
* `Pending`: the name and the colon of a pair wait, and the value is still to be read (`Pending.run_value`).
* `Passed`: the colon and the value of a pair wait, and the lexer has come to the next line. Either there is
  another name on it (`Passed.run_key`), or the text ends there and with it the mapping (`Passed.run_end`).

`run_pending` goes through the lines with these by induction on the lines left. Each token is fetched from a
place to which blanks and line ends lead (`toToken_line`, `fetch_eq`); there is one lemma for a name
(`fetch_name`), one for a colon (`fetch_colon`) and one for the end (`fetch_end`). `Sound` and `InMapping` are
what these need to know of the lexer: that its text has no byte order mark, that no flow collection is open,
and that no key has started.
-/
namespace BlockWorld.Data.Yaml

/-! ## Names -/

/-- The characters of names of fields. -/
def isNameChar (c : Char) : Bool := c.isLower || c == '_'

theorem ne_of_isNameChar {c d : Char} (hc : isNameChar c = true) (hd : isNameChar d = false) : c ≠ d := by
  rintro rfl
  rw [hc] at hd
  cases hd

theorem visible_of_isNameChar {c : Char} (h : isNameChar c = true) :
    isBlankChar c = false ∧ isBreak c = false := by
  have hne : ∀ d, isNameChar d = false → (c == d) = false := fun d hd =>
    beq_eq_false_iff_ne.mpr (ne_of_isNameChar h hd)
  constructor
  · rw [isBlankChar, hne ' ' rfl, hne '\t' rfl]; rfl
  · rw [isBreak, hne '\n' rfl, hne '\r' rfl, hne '\u0085' rfl, hne '\u2028' rfl,
      hne '\u2029' rfl]
    rfl

theorem isIndicator_of_isNameChar {c : Char} (h : isNameChar c = true) : isIndicator c = false := by
  have hne : ∀ d, isNameChar d = false → (c == d) = false := fun d hd =>
    beq_eq_false_iff_ne.mpr (ne_of_isNameChar h hd)
  simp only [isIndicator, hne ',' rfl, hne '[' rfl, hne ']' rfl, hne '\x7b' rfl, hne '\x7d' rfl, hne '#' rfl,
    hne '&' rfl, hne '*' rfl, hne '!' rfl, hne '|' rfl, hne '>' rfl, hne '\'' rfl, hne '"' rfl, hne '%' rfl,
    hne '@' rfl, hne (Char.ofNat 0x60) rfl, Bool.or_self]

theorem isAscii_of_isNameChar {c : Char} (h : isNameChar c = true) : IsAscii c := by
  have hlt : c.toNat < 128 := by
    rw [isNameChar, Bool.or_eq_true_iff, beq_iff_eq] at h
    obtain hlower | rfl := h
    · have hle : c.val ≤ 122 := of_decide_eq_true (Bool.and_eq_true_iff.mp hlower).2
      exact Nat.lt_of_le_of_lt (show c.val.toNat ≤ 122 from hle) (by decide)
    · decide
  have hall := forall_ascii (p := fun c => isNameChar c → IsAscii c) (by decide +kernel) hlt
  exact decide_eq_true_iff.mp hall h

/-- What comes behind the line of a pair: the end of the text, or the next name. -/
def StartsName (rest : List Char) : Prop := ∀ c ∈ rest.head?, isNameChar c = true

theorem StartsName.startsLine {rest : List Char} (h : StartsName rest) : StartsLine rest := fun c hc =>
  visible_of_isNameChar (h c hc)

/-- The name of a field. Its colon is near enough to be found. -/
structure IsName (name : List Char) : Prop where
  nonempty : name ≠ []
  chars : ∀ c ∈ name, isNameChar c = true
  short : name.length ≤ keyReach

theorem isMarker_of_ne {c m : Char} (h : c ≠ m) (rest : List Char) : isMarker m (c :: rest) = false := by
  rw [isMarker.eq_def]
  split
  · rename_i heq
    cases heq
    rw [beq_eq_false_iff_ne.mpr h]
    rfl
  · rfl

theorem plainWord_name {name : List Char} (h : ∀ c ∈ name, isNameChar c = true) (rest : List Char) :
    plainWord false (name ++ ':' :: ' ' :: rest) = name := by
  induction name with
  | nil => rfl
  | cons c name ih =>
    have hc := h c List.mem_cons_self
    obtain ⟨hblank, hbreak⟩ := visible_of_isNameChar hc
    rw [List.cons_append, plainWord, hblank, hbreak, beq_eq_false_iff_ne.mpr (ne_of_isNameChar hc rfl),
      ih fun d hd => h d (List.mem_cons_of_mem c hd)]
    rfl

/-- A name is read up to its colon. -/
theorem IsName.plainScalar {name : List Char} (h : IsName name) (rest : List Char) (indent : Int) {fuel : Nat}
    (hfuel : 2 < fuel) (i line : Nat) :
    Yaml.plainScalar fuel false indent ⟨name ++ ':' :: ' ' :: rest, i, line, 0⟩
      = .ok ⟨name, false, ⟨':' :: ' ' :: rest, i + name.length, line, name.length⟩⟩ := by
  obtain ⟨fuel, rfl⟩ : ∃ k, fuel = k + 2 := ⟨fuel - 2, by omega⟩
  have hword := plainWord_name h.chars rest
  obtain ⟨c, behind, hcons⟩ := List.exists_cons_of_ne_nil h.nonempty
  have hc := h.chars c (by rw [hcons]; exact List.mem_cons_self)
  have hpos : 0 < name.length := List.length_pos_iff.mpr h.nonempty
  have hstart : (Cursor.isAtMarker ⟨name ++ ':' :: ' ' :: rest, i, line, 0⟩
      || Cursor.isAt ⟨name ++ ':' :: ' ' :: rest, i, line, 0⟩ '#') = false := by
    rw [hcons, Cursor.isAtMarker, List.cons_append, isMarker_of_ne (ne_of_isNameChar hc rfl),
      isMarker_of_ne (ne_of_isNameChar hc rfl), Cursor.isAt, List.head?_cons,
      beq_eq_false_iff_ne.mpr fun he => ne_of_isNameChar hc rfl (Option.some.inj he)]
    rfl
  have hgap := Cursor.gap?_spaces indent (i + name.length) line (0 + name.length) (x := ':') rfl rfl
    (' ' :: rest) (show 0 < fuel + 1 from Nat.succ_pos _) []
  rw [Yaml.plainScalar, plainWords, hstart, hword, if_neg Bool.false_ne_true, hcons]
  dsimp only
  rw [← hcons, skip_append]
  rw [List.replicate_zero, List.nil_append] at hgap
  rw [hgap]
  simp only [List.isEmpty_nil, Bool.not_true, Bool.and_false, Bool.false_and, Bool.false_eq_true, if_false]
  rw [plainWords, isAtMarker_of_column (by omega)]
  simp [Cursor.isAt, plainWord, startsBlank, isBlankChar, isBreak]

theorem IsName.startsName {name : List Char} (h : IsName name) (rest : List Char) : StartsName (name ++ rest) := by
  obtain ⟨c, behind, hcons⟩ := List.exists_cons_of_ne_nil h.nonempty
  rw [hcons]
  rintro _ ⟨⟩
  exact h.chars c (by rw [hcons]; exact List.mem_cons_self)

/-! ## To the next token -/

section ToToken

variable {marked : Cursor → Bool} (hmarked : ∀ c, marked c = false) (i line column : Nat) (keys : Bool)
include hmarked

theorem toToken_visible {c : Char} (hblank : isBlankChar c = false) (hbreak : isBreak c = false) (hmark : c ≠ '#')
    (rest : List Char) {fuel : Nat} (hfuel : 0 < fuel) :
    Cursor.toToken marked false fuel keys ⟨c :: rest, i, line, column⟩ = (keys, ⟨c :: rest, i, line, column⟩) := by
  cases fuel with
  | zero => omega
  | succ fuel =>
    rw [isBlankChar, Bool.or_eq_false_iff] at hblank
    simp [Cursor.toToken, hmarked, Cursor.skipWhile, Cursor.skip, Cursor.isAt, hmark, hblank.1, hblank.2, hbreak]

theorem toToken_nil {fuel : Nat} :
    Cursor.toToken marked false fuel keys ⟨[], i, line, column⟩ = (keys, ⟨[], i, line, column⟩) := by
  cases fuel with
  | zero => rfl
  | succ fuel => simp [Cursor.toToken, hmarked, Cursor.skipWhile, Cursor.skip, Cursor.isAt]

theorem toToken_space {c : Char} (hblank : isBlankChar c = false) (hbreak : isBreak c = false) (hmark : c ≠ '#')
    (rest : List Char) {fuel : Nat} (hfuel : 0 < fuel) :
    Cursor.toToken marked false fuel keys ⟨' ' :: c :: rest, i, line, column⟩
      = (keys, ⟨c :: rest, i + 1, line, column + 1⟩) := by
  cases fuel with
  | zero => omega
  | succ fuel =>
    rw [isBlankChar, Bool.or_eq_false_iff] at hblank
    simp [Cursor.toToken, hmarked, Cursor.skipWhile, Cursor.skip, Cursor.isAt, hmark, hblank.1, hblank.2, hbreak]

/-- The next line, from its start or from the end of the line before. -/
theorem toToken_line {rest : List Char} (hrest : StartsName rest) {fuel : Nat} (hfuel : 1 < fuel) :
    Cursor.toToken marked false fuel true ⟨rest, i, line, 0⟩ = (true, ⟨rest, i, line, 0⟩)
      ∧ Cursor.toToken marked false fuel keys ⟨'\n' :: rest, i, line, column⟩
        = (true, ⟨rest, i + 1, line + 1, 0⟩) := by
  have hstart : ∀ i line fuel, 0 < fuel →
      Cursor.toToken marked false fuel true ⟨rest, i, line, 0⟩ = (true, ⟨rest, i, line, 0⟩) := by
    intro i line fuel hfuel
    cases rest with
    | nil => exact toToken_nil hmarked ..
    | cons c rest =>
      obtain ⟨hblank, hbreak⟩ := visible_of_isNameChar (hrest c rfl)
      exact toToken_visible hmarked _ _ _ _ hblank hbreak (ne_of_isNameChar (hrest c rfl) rfl) rest hfuel
  refine ⟨hstart i line fuel (by omega), ?_⟩
  cases fuel with
  | zero => omega
  | succ fuel =>
    rw [Cursor.toToken]
    simp [hmarked, Cursor.skipWhile, Cursor.skip, Cursor.isAt, show isBreak '\n' = true from rfl,
      Cursor.skipLine, lineEnd?_newline, hstart _ _ fuel (by omega)]

end ToToken

/-! ## Fetching -/

namespace Lexer

/-- The text can be read to its end, its first character is no mark, and no flow collection is open. -/
structure Sound (l : Lexer) : Prop where
  flow : l.flow = 0
  unmarked : l.source.chars.head? ≠ some byteOrderMark
  unbroken : l.source.broken = false

/-- Inside the outermost mapping, where no key has started. -/
structure InMapping (l : Lexer) : Prop extends Sound l where
  indent : l.indent = 0
  indents : l.indents = [-1]
  keys : ∃ k, l.keys = [k] ∧ k.possible = false
  held : ∀ n : Nat, l.held[n]? = none

theorem Sound.isMarked_eq_false {l : Lexer} (h : l.Sound) (c : Cursor) : l.isMarked c = false := by
  rw [isMarked, beq_eq_false_iff_ne.mpr h.unmarked, Bool.false_and, Bool.false_and]

theorem unroll_eq {l : Lexer} {column : Int} (h : ¬column < l.indent) : l.unroll column = l := by
  rw [unroll]
  split
  · obtain ⟨source, size, cursor, queue, given, flow, indent, indents, keys, held, keyAllowed⟩ := l
    cases indents with
    | nil => simp [unrolled]
    | cons outer indents => simp only [unrolled, if_neg h, List.append_nil]
  · rfl

/-- The lexer at another place. -/
def moved (l : Lexer) (keys : Bool) (c : Cursor) : Lexer := { l with keyAllowed := keys, cursor := c }

theorem Sound.moved {l : Lexer} (h : l.Sound) (keys : Bool) (c : Cursor) : (l.moved keys c).Sound :=
  ⟨h.flow, h.unmarked, h.unbroken⟩

/-- The token at a place to which blanks and line ends lead. -/
theorem fetch_eq {l : Lexer} (h : l.Sound) {keys : Bool} {c : Char} {rest : List Char} {i line column : Nat}
    (htoken : l.cursor.toToken l.isMarked false l.size l.keyAllowed = (keys, ⟨c :: rest, i, line, column⟩))
    (hindent : ¬(column : Int) < l.indent) :
    l.fetch = (l.moved keys ⟨c :: rest, i, line, column⟩).fetchAt c rest := by
  have hflow : decide (0 < l.flow) = false := by rw [h.flow]; rfl
  rw [fetch, hflow, htoken]
  dsimp only
  rw [unroll_eq (l := { l with keyAllowed := keys, cursor := ⟨c :: rest, i, line, column⟩ }) hindent]
  simp [h.unbroken, moved]

/-- A plain scalar starts where nothing else does. -/
theorem fetchAt_plain {l : Lexer} (h : l.Sound) {c : Char} {rest : List Char}
    (hplace : l.cursor.column ≠ 0 ∨ isNameChar c = true) (hindicator : isIndicator c = false)
    (hopen : c = '-' ∨ c = '?' ∨ c = ':' → startsBlank rest = false)
    (hvisible : isBlankChar c = false ∧ isBreak c = false) : l.fetchAt c rest = l.fetchPlain := by
  have hflow : decide (0 < l.flow) = false := by rw [h.flow]; rfl
  have hne : ∀ d, isIndicator d = true → c ≠ d := by
    rintro d hd rfl
    rw [hindicator] at hd
    cases hd
  have hstart : ∀ d, isNameChar d = false → ¬(l.cursor.column = 0 ∧ c = d) := by
    rintro d hd ⟨hcolumn, rfl⟩
    obtain hplace | hname := hplace
    · exact hplace hcolumn
    · rw [hname] at hd
      cases hd
  have hmarker : ∀ d, isNameChar d = false → ¬(l.cursor.column = 0 ∧ isMarker d (c :: rest) = true) := by
    rintro d hd ⟨hcolumn, hmarker⟩
    rw [isMarker_of_ne fun hc => hstart d hd ⟨hcolumn, hc⟩] at hmarker
    cases hmarker
  have hsign : ∀ d, d = '-' ∨ d = '?' ∨ d = ':' → ¬(c = d ∧ startsBlank rest = true) := by
    rintro d hd ⟨rfl, hblank⟩
    rw [hopen hd] at hblank
    cases hblank
  have hbegins : startsPlain false (c :: rest) = true := by
    rw [startsPlain]
    by_cases hdash : c = '-'
    · have hblank := hopen (.inl hdash)
      cases rest with
      | nil => cases hblank
      | cons d rest =>
        have hd : isBlankChar d = false := (Bool.or_eq_false_iff.mp hblank).1
        simp [hdash, hd]
    · by_cases hsign : c = '?' ∨ c = ':'
      · have hblank := hopen (.inr hsign)
        simp [hdash, hsign, hblank]
      · simp [hdash, hsign, hindicator, hvisible.1, hvisible.2]
  rw [fetchAt, hflow]
  simp only [Bool.false_or]
  rw [if_neg (hstart '%' rfl), if_neg (hmarker '-' rfl), if_neg (hmarker '.' rfl), if_neg (hne '[' rfl),
    if_neg (hne '\x7b' rfl), if_neg (hne ']' rfl), if_neg (hne '\x7d' rfl), if_neg (hne ',' rfl),
    if_neg (hsign '-' (.inl rfl)), if_neg (hsign '?' (.inr (.inl rfl))), if_neg (hsign ':' (.inr (.inr rfl))),
    if_neg (hne '*' rfl), if_neg (hne '&' rfl), if_neg (hne '!' rfl), if_neg fun hc => hne '|' rfl hc.1,
    if_neg fun hc => hne '>' rfl hc.1, if_neg (hne '\'' rfl), if_neg (hne '"' rfl), if_pos hbegins]

/-- The lexer behind a name of which a colon may make a key, with what stands behind colon and space. -/
def named (l : Lexer) (name more : List Char) (i line : Nat) : Lexer :=
  { l with
    queue := l.queue ++ [.scalar name true]
    cursor := ⟨':' :: ' ' :: more, i + name.length, line, name.length⟩
    keys := [⟨true, l.indent = 0, l.nextNumber, ⟨name ++ ':' :: ' ' :: more, i, line, 0⟩⟩]
    held := l.held.insert l.nextNumber 0
    keyAllowed := false }

/-- The lexer with other tokens that wait. -/
def waiting (l : Lexer) (queue : List Token) (given : Nat) : Lexer := { l with queue, given }

/-- The name at the start of a line. -/
theorem fetch_name {l : Lexer} (h : l.Sound) {name more : List Char} (hname : IsName name) {i line : Nat}
    (htoken : l.cursor.toToken l.isMarked false l.size l.keyAllowed
      = (true, ⟨name ++ ':' :: ' ' :: more, i, line, 0⟩))
    (hindent : ¬0 < l.indent) {k : KeyStart} (hkeys : l.keys = [k]) (hgone : k.possible = false)
    (hsize : 2 < l.size) : l.fetch = .ok (l.named name more i line) := by
  obtain ⟨c, behind, hcons⟩ := List.exists_cons_of_ne_nil hname.nonempty
  have hc := hname.chars c (by rw [hcons]; exact List.mem_cons_self)
  have hread := hname.plainScalar more (l.indent + 1) hsize i line
  rw [hcons, List.cons_append] at htoken
  rw [fetch_eq h htoken hindent, fetchAt_plain (h.moved ..) (.inr hc) (isIndicator_of_isNameChar hc) ?_
    (visible_of_isNameChar hc), ← List.cons_append, ← hcons]
  · simp [moved, named, fetchPlain, saveKey, removeKey, setKey, hkeys, hgone, h.flow, hread, bind, Except.bind,
      nextNumber, emit, Cursor.passLineComment, Cursor.isAt, Cursor.skip, isBlankChar]
  · rintro (rfl | rfl | rfl) <;> cases hc

/-- What comes behind the colon and the space of a pair. -/
def StartsValue (more : List Char) : Prop := ∃ d rest, more = d :: rest ∧ isBlankChar d = false ∧ d ≠ '#'

/-- The lexer behind the colon that has made a name a key of the outermost mapping. -/
def keyed (l : Lexer) (name more : List Char) (i line : Nat) (queue : List Token) (given : Nat) : Lexer :=
  { l with
    queue
    given
    indent := 0
    indents := [-1]
    cursor := ⟨' ' :: more, i + name.length + 1, line, name.length + 1⟩
    keys := [⟨false, l.indent = 0, l.nextNumber, ⟨name ++ ':' :: ' ' :: more, i, line, 0⟩⟩]
    held := (l.held.insert l.nextNumber 0).erase l.nextNumber
    keyAllowed := false }

/-- The colon behind a name makes it a key. Meanwhile some tokens may have been given out. -/
theorem fetch_colon {l : Lexer} (h : l.Sound) {name more : List Char} (hname : IsName name)
    (hmore : StartsValue more) (i line : Nat) (hindent : ¬0 < l.indent) (hsize : 0 < l.size)
    (before queue : List Token) (given : Nat)
    (hroll : (((l.named name more i line).waiting before given).insert l.nextNumber .key).roll 0 l.nextNumber
        .blockMappingStart
      = .ok { l.named name more i line with queue, given, indent := 0, indents := [-1] }) :
    ((l.named name more i line).waiting before given).fetch
      = .ok (l.keyed name more i line (queue ++ [.value]) given) := by
  obtain ⟨d, rest, rfl, hblank, hmark⟩ := hmore
  obtain ⟨l', hl'⟩ : ∃ l', l' = (l.named name (d :: rest) i line).waiting before given := ⟨_, rfl⟩
  have hsound : l'.Sound := by rw [hl']; exact ⟨h.flow, h.unmarked, h.unbroken⟩
  have hcursor : l'.cursor = ⟨':' :: ' ' :: d :: rest, i + name.length, line, name.length⟩ := by rw [hl']; rfl
  have htoken : l'.cursor.toToken l'.isMarked false l'.size l'.keyAllowed
      = (l'.keyAllowed, ⟨':' :: ' ' :: d :: rest, i + name.length, line, name.length⟩) := by
    rw [hcursor]
    exact toToken_visible hsound.isMarked_eq_false _ _ _ _ rfl rfl (by decide) _ (by rw [hl']; exact hsize)
  have hsame : l'.moved l'.keyAllowed ⟨':' :: ' ' :: d :: rest, i + name.length, line, name.length⟩ = l' := by
    rw [← hcursor]
    rfl
  have hat : l'.fetchAt ':' (' ' :: d :: rest) = l'.fetchValue := by
    simp [fetchAt, isMarker_of_ne, startsBlank, isBlankChar]
  have hkey : l'.openKey?
      = .ok (some ⟨true, l.indent = 0, l.nextNumber, ⟨name ++ ':' :: ' ' :: d :: rest, i, line, 0⟩⟩) := by
    simp [hl', named, waiting, openKey?, KeyStart.isOpen, KeyStart.reaches, hname.short, bind, Except.bind, pure,
      Except.pure]
  rw [← hl'] at hroll ⊢
  rw [fetch_eq hsound htoken (by rw [hl']; show ¬((name.length : Nat) : Int) < l.indent; omega), hsame, hat,
    fetchValue, hkey]
  simp only [bind, Except.bind, hroll]
  simp [named, keyed, setKey, release, emit, KeyStart.giveUp, Cursor.passLineComment, Cursor.skip, Cursor.isAt,
    show isBlankChar ' ' = true from rfl, hblank, hmark]

/-- The lexer at the end of the text, outside of the mapping. -/
def ended (l : Lexer) (queue : List Token) (given i line : Nat) : Lexer :=
  { l with
    queue
    given
    indent := -1
    indents := []
    cursor := ⟨[], i, line, 0⟩
    keyAllowed := false }

/-- The end of the text ends the mapping. -/
theorem fetch_end {l : Lexer} (h : l.InMapping) {keys : Bool} {i line : Nat}
    (htoken : l.cursor.toToken l.isMarked false l.size l.keyAllowed = (keys, ⟨[], i, line, 0⟩)) :
    l.fetch = .ok (l.ended (l.queue ++ [.blockEnd, .textEnd]) l.given i line) := by
  have hflow : decide (0 < l.flow) = false := by rw [h.flow]; rfl
  obtain ⟨k, hkeys, hgone⟩ := h.keys
  rw [fetch, hflow, htoken]
  simp [h.unbroken, fetchEnd, toOutside, unroll, unrolled, h.flow, h.indent, h.indents, removeKey, hkeys, hgone,
    bind, Except.bind, emit, ended, Cursor.passLineComment, Cursor.isAt, Cursor.skip]

/-- Behind the end of the text there is nothing else. -/
theorem fetch_ended {l : Lexer} (h : l.InMapping) (queue : List Token) (given i line : Nat) :
    (l.ended queue given i line).fetch = .ok (l.ended (queue ++ [.textEnd]) given i line) := by
  have hflow : decide (0 < l.flow) = false := by rw [h.flow]; rfl
  obtain ⟨k, hkeys, hgone⟩ := h.keys
  have hsound : (l.ended queue given i line).Sound := ⟨h.flow, h.unmarked, h.unbroken⟩
  have htoken : (l.ended queue given i line).cursor.toToken (l.ended queue given i line).isMarked
      (decide (0 < (l.ended queue given i line).flow)) (l.ended queue given i line).size false
        = (false, ⟨[], i, line, 0⟩) := by
    rw [show decide (0 < (l.ended queue given i line).flow) = false from hflow]
    exact toToken_nil hsound.isMarked_eq_false ..
  rw [fetch, show (l.ended queue given i line).keyAllowed = false from rfl, htoken]
  simp [h.unbroken, fetchEnd, toOutside, unroll, unrolled, h.flow, removeKey, hkeys, hgone, bind, Except.bind, emit,
    ended, Cursor.passLineComment, Cursor.isAt, Cursor.skip]

/-! ## Giving out -/

theorem run_fetch {l l' : Lexer} (hqueue : l.queue.length < 3) (hfetch : l.fetch = .ok l') (fuel : Nat) :
    run (fuel + 1) l = run fuel l' := by
  rw [run]
  cases hq : l.queue with
  | nil => simp only [hfetch]
  | cons t more =>
    rw [hq, List.length_cons] at hqueue
    simp only [hfetch, tokensAhead, if_pos (show more.length < 2 by omega)]

theorem run_give {l : Lexer} {t a b : Token} {more : List Token} (hqueue : l.queue = t :: a :: b :: more)
    (hheld : l.held[l.given]? = none) (ht : t ≠ .textEnd) (fuel : Nat) :
    run (fuel + 1) l = t :: run fuel (l.waiting (a :: b :: more) (l.given + 1)) := by
  have hmany : ¬(a :: b :: more).length < tokensAhead := by simp [tokensAhead]
  rw [run, hqueue]
  simp only [if_neg hmany, holdsBack, hheld, if_neg ht, waiting]

theorem run_textEnd {l : Lexer} {a b : Token} {more : List Token} (hqueue : l.queue = .textEnd :: a :: b :: more)
    (hheld : l.held[l.given]? = none) (fuel : Nat) : run (fuel + 1) l = [.textEnd] := by
  have hmany : ¬(a :: b :: more).length < tokensAhead := by simp [tokensAhead]
  rw [run, hqueue]
  simp only [if_neg hmany, holdsBack, hheld, if_true]

end Lexer

/-! ## Values -/

/-- Behind the line of a value: at the start of the next line, or at the end of this one. -/
def Arrived (rest : List Char) (keys : Bool) (c : Cursor) : Prop :=
  (keys = true ∧ ∃ i line, c = ⟨rest, i, line, 0⟩) ∨ ∃ i line column, c = ⟨'\n' :: rest, i, line, column⟩

theorem Arrived.toToken {rest : List Char} {keys : Bool} {c : Cursor} (h : Arrived rest keys c)
    (hrest : StartsName rest) {marked : Cursor → Bool} (hmarked : ∀ c, marked c = false) {fuel : Nat}
    (hfuel : 1 < fuel) : ∃ i line, c.toToken marked false fuel keys = (true, ⟨rest, i, line, 0⟩) := by
  obtain ⟨rfl, i, line, rfl⟩ | ⟨i, line, column, rfl⟩ := h
  · exact ⟨i, line, (toToken_line hmarked i line 0 true hrest hfuel).1⟩
  · exact ⟨i + 1, line + 1, (toToken_line hmarked i line column keys hrest hfuel).2⟩

/-- What is written as the value of a pair, up to the end of its last line, is read as a scalar. -/
structure ReadsAs (written text : List Char) (plain : Bool) : Prop where
  starts : ∃ c cs, written = c :: cs ∧ isBlankChar c = false ∧ isBreak c = false ∧ c ≠ '#'
  fetches : ∀ {l : Lexer} {c : Char} {cs rest : List Char} {i line column : Nat}, l.InMapping →
    l.keyAllowed = false → StartsName rest → written = c :: cs →
    l.cursor = ⟨c :: (cs ++ rest), i, line, column + 1⟩ → (written ++ rest).length < l.size →
    ∃ keys after, Arrived rest keys after ∧ l.fetchAt c (cs ++ rest) = .ok { l with
      queue := l.queue ++ [.scalar text plain], keyAllowed := keys, cursor := after }

namespace Lexer

/-- A value, what is written of it and behind it, is still to be read; its name and its colon wait. -/
structure Pending (l : Lexer) (name more : List Char) : Prop extends InMapping l where
  queue : l.queue = [.scalar name true, .value]
  keyAllowed : l.keyAllowed = false
  cursor : ∃ i line column, l.cursor = ⟨' ' :: more, i, line, column⟩
  size : more.length + 3 < l.size

/-- A pair of which only the colon and the value wait, which is on the lines before the current place. -/
structure Passed (l : Lexer) (text : List Char) (plain : Bool) (rest : List Char) : Prop extends InMapping l where
  queue : l.queue = [.value, .scalar text plain]
  arrived : Arrived rest l.keyAllowed l.cursor
  size : rest.length + 3 < l.size

theorem held_keyed {l : Lexer} (hheld : ∀ n : Nat, l.held[n]? = none) (name more : List Char) (i line : Nat)
    (queue : List Token) (given n : Nat) : (l.keyed name more i line queue given).held[n]? = none := by
  rw [keyed, Std.TreeMap.getElem?_erase, Std.TreeMap.getElem?_insert, hheld]
  by_cases hn : l.nextNumber = n
  · simp [hn]
  · simp [hn]

/-- Behind the colon tokens are given out as long as there are enough of them. -/
theorem run_keyed {l : Lexer} (hheld : ∀ n : Nat, l.held[n]? = none) (name more : List Char) (i line : Nat)
    (t : Token) (ht : t ≠ .textEnd) (a b : Token) (queue : List Token) (given fuel : Nat) :
    run (fuel + 1) (l.keyed name more i line (t :: a :: b :: queue) given)
      = t :: run fuel (l.keyed name more i line (a :: b :: queue) (given + 1)) :=
  run_give (l := l.keyed name more i line (t :: a :: b :: queue) given) rfl (held_keyed hheld ..) ht fuel

/-- When its key has been given out, the name behind it and its colon wait. -/
theorem pending_keyed {l : Lexer} (h : l.Sound) (hheld : ∀ n : Nat, l.held[n]? = none) (name : List Char)
    {more : List Char} (hsize : more.length + 3 < l.size) (i line given : Nat) :
    (l.keyed name more i line [.scalar name true, .value] given).Pending name more where
  flow := h.flow
  unmarked := h.unmarked
  unbroken := h.unbroken
  indent := rfl
  indents := rfl
  keys := ⟨_, rfl, rfl⟩
  held := held_keyed hheld name more i line _ given
  queue := rfl
  keyAllowed := rfl
  cursor := ⟨_, _, _, rfl⟩
  size := hsize

/-- The value of a pair. -/
theorem Pending.run_value {l : Lexer} {name written text rest : List Char} {plain : Bool}
    (h : l.Pending name (written ++ rest)) (hvalue : ReadsAs written text plain) (hrest : StartsName rest) :
    ∃ l', l'.Passed text plain rest ∧ ∀ fuel, run (fuel + 2) l = .scalar name true :: run fuel l' := by
  obtain ⟨c, cs, rfl, hblank, hbreak, hmark⟩ := hvalue.starts
  obtain ⟨i, line, column, hcursor⟩ := h.cursor
  have hsize := h.size
  have htoken : l.cursor.toToken l.isMarked false l.size l.keyAllowed
      = (l.keyAllowed, ⟨c :: (cs ++ rest), i + 1, line, column + 1⟩) := by
    rw [hcursor]
    exact toToken_space h.isMarked_eq_false _ _ _ _ hblank hbreak hmark _ (by omega)
  obtain ⟨keys, after, harrived, hfetch⟩ := hvalue.fetches
    (l := l.moved l.keyAllowed ⟨c :: (cs ++ rest), i + 1, line, column + 1⟩)
    ⟨h.moved .., h.indent, h.indents, h.keys, h.held⟩ h.keyAllowed hrest rfl rfl (Nat.lt_of_add_right_lt hsize)
  rw [← fetch_eq h.toSound htoken (by rw [h.indent]; omega)] at hfetch
  refine ⟨{ l with
    queue := [.value, .scalar text plain], keyAllowed := keys, cursor := after, given := l.given + 1 },
    ⟨⟨⟨h.flow, h.unmarked, h.unbroken⟩, h.indent, h.indents, h.keys, h.held⟩, rfl, harrived, ?_⟩, fun fuel => ?_⟩
  · rw [List.length_append] at hsize
    exact Nat.lt_of_le_of_lt (by omega) hsize
  · rw [run_fetch (by rw [h.queue]; exact Nat.lt_succ_self 2) hfetch]
    rw [run_give (t := .scalar name true) (congrArg (· ++ [.scalar text plain]) h.queue) ?_ nofun]
    · rfl
    · exact h.held _

/-- The name and the colon of the next pair. -/
theorem Passed.run_key {l : Lexer} {text name more : List Char} {plain : Bool}
    (h : l.Passed text plain (name ++ ':' :: ' ' :: more)) (hname : IsName name) (hmore : StartsValue more) :
    ∃ l', l'.Pending name more
      ∧ ∀ fuel, run (fuel + 5) l = .value :: .scalar text plain :: .key :: run fuel l' := by
  obtain ⟨k, hkeys, hgone⟩ := h.keys
  have hsize := h.size
  have hindent : ¬0 < l.indent := by rw [h.indent]; decide
  obtain ⟨i, line, htoken⟩ :=
    h.arrived.toToken (hname.startsName _) h.isMarked_eq_false (show 1 < l.size by omega)
  have hnumber : l.nextNumber = l.given + 2 := by rw [nextNumber, h.queue]; rfl
  have hfirst := fetch_name h.toSound hname htoken hindent hkeys hgone (by omega)
  have hsecond := fetch_colon h.toSound hname hmore i line hindent (by omega)
    [.scalar text plain, .scalar name true] [.scalar text plain, .key, .scalar name true] (l.given + 1)
    (by simp [insert, roll, hnumber, named, waiting, h.flow, h.indent, h.indents])
  have hheld : (l.named name more i line).held[l.given]? = none := by
    rw [named, hnumber, Std.TreeMap.getElem?_insert]
    simp [h.held]
  refine ⟨_, pending_keyed h.toSound h.held name ?_ i line (l.given + 3), fun fuel => ?_⟩
  · rw [List.length_append, List.length_cons, List.length_cons] at hsize
    omega
  · rw [run_fetch (by rw [h.queue]; exact Nat.lt_succ_self 2) hfirst,
      run_give (t := .value) (congrArg (· ++ [.scalar name true]) h.queue) hheld nofun,
      show (l.named name more i line).given = l.given from rfl,
      run_fetch (by exact Nat.lt_succ_self 2) hsecond]
    simp only [List.cons_append, List.nil_append]
    rw [run_keyed h.held _ _ _ _ (.scalar text plain) nofun, run_keyed h.held _ _ _ _ .key nofun]

/-- The end of the mapping. -/
theorem Passed.run_end {l : Lexer} {text : List Char} {plain : Bool} (h : l.Passed text plain []) (fuel : Nat) :
    run (fuel + 7) l = [.value, .scalar text plain, .blockEnd, .textEnd] := by
  obtain ⟨k, hkeys, hgone⟩ := h.keys
  have hsize := h.size
  obtain ⟨i, line, htoken⟩ := h.arrived.toToken nofun h.isMarked_eq_false (show 1 < l.size by omega)
  have hfirst := fetch_end h.toInMapping htoken
  rw [h.queue] at hfirst
  have hgive : ∀ t a b more given fuel, t ≠ .textEnd →
      run (fuel + 1) (l.ended (t :: a :: b :: more) given i line)
        = t :: run fuel (l.ended (a :: b :: more) (given + 1) i line) := fun t a b more given fuel ht =>
    run_give (l := l.ended (t :: a :: b :: more) given i line) rfl (h.held _) ht fuel
  have hagain : ∀ t u given fuel, run (fuel + 1) (l.ended [t, u] given i line)
      = run fuel (l.ended [t, u, .textEnd] given i line) := fun t u given fuel =>
    run_fetch (l := l.ended [t, u] given i line) (by exact Nat.lt_succ_self 2)
      (fetch_ended h.toInMapping [t, u] given i line) fuel
  rw [run_fetch (by rw [h.queue]; exact Nat.lt_succ_self 2) hfirst]
  simp only [List.cons_append, List.nil_append]
  rw [hgive .value _ _ _ _ _ nofun, hgive (.scalar text plain) _ _ _ _ _ nofun, hagain,
    hgive .blockEnd _ _ _ _ _ nofun, hagain,
    run_textEnd (l := l.ended [.textEnd, .textEnd, .textEnd] _ i line) rfl (h.held _)]

/-- The first name and its colon start the mapping. -/
theorem run_start {source : Source} {name more : List Char} (hchars : source.chars = name ++ ':' :: ' ' :: more)
    (hbroken : source.broken = false) (hname : IsName name) (hmore : StartsValue more) :
    ∃ l', l'.Pending name more
      ∧ ∀ fuel, run (fuel + 4) (start source) = .blockMappingStart :: .key :: run fuel l' := by
  obtain ⟨l, hl⟩ : ∃ l, l = start source := ⟨_, rfl⟩
  have hsize : l.size = name.length + more.length + 6 := by
    rw [hl]
    show source.chars.length + 4 = _
    rw [hchars, List.length_append, List.length_cons, List.length_cons]
    omega
  have hmark : source.chars.head? ≠ some byteOrderMark := by
    intro hhead
    have hc := hname.startsName (':' :: ' ' :: more) byteOrderMark (by rw [← hchars, hhead]; rfl)
    exact absurd hc (by decide)
  have hsound : l.Sound := by rw [hl]; exact ⟨rfl, hmark, hbroken⟩
  have hcursor : l.cursor = ⟨name ++ ':' :: ' ' :: more, 0, 0, 0⟩ := by rw [hl, ← hchars]; rfl
  have hindent : l.indent = -1 := by rw [hl]; rfl
  have hindents : l.indents = [] := by rw [hl]; rfl
  have hkeys : l.keys = [⟨false, false, 0, .start source.chars⟩] := by rw [hl]; rfl
  have hheld : ∀ n : Nat, l.held[n]? = none := fun n => by rw [hl]; exact Std.TreeMap.getElem?_emptyc
  have hqueue : l.queue = [] := by rw [hl]; rfl
  have hgiven : l.given = 0 := by rw [hl]; rfl
  have hallowed : l.keyAllowed = true := by rw [hl]; rfl
  have hnumber : l.nextNumber = 0 := by rw [nextNumber, hqueue, hgiven]; rfl
  have htoken : l.cursor.toToken l.isMarked false l.size l.keyAllowed
      = (true, ⟨name ++ ':' :: ' ' :: more, 0, 0, 0⟩) := by
    rw [hcursor, hallowed]
    exact (toToken_line hsound.isMarked_eq_false 0 0 0 true (hname.startsName _) (by omega)).1
  have hfirst := fetch_name hsound hname htoken (by rw [hindent]; decide) hkeys rfl (by omega)
  have hsecond := fetch_colon hsound hname hmore 0 0 (by rw [hindent]; decide) (by omega)
    [.scalar name true] [.blockMappingStart, .key, .scalar name true] 0
    (by simp [insert, roll, hnumber, named, waiting, hsound.flow, hindent, hindents, maxDepth])
  have hsame : (l.named name more 0 0).waiting [.scalar name true] 0 = l.named name more 0 0 := by
    rw [named, waiting, hqueue, hgiven]
    rfl
  rw [hsame] at hsecond
  rw [← hl]
  refine ⟨_, pending_keyed hsound hheld name (show more.length + 3 < l.size by omega) 0 0 2, fun fuel => ?_⟩
  rw [run_fetch (by rw [hqueue]; exact Nat.succ_pos 2) hfirst,
    run_fetch (by rw [named, hqueue]; exact Nat.lt_of_sub_eq_succ rfl) hsecond]
  simp only [List.cons_append, List.nil_append]
  rw [run_keyed hheld _ _ _ _ .blockMappingStart nofun, run_keyed hheld _ _ _ _ .key nofun]

end Lexer

/-! ## Mappings -/

/-- A pair on lines of its own: what is written behind the name, up to the end of the last line, and the
scalar it stands for. -/
structure Line where
  name : List Char
  written : List Char
  text : List Char
  plain : Bool

namespace Line

/-- The characters of a pair. -/
def chars (x : Line) : List Char := x.name ++ ':' :: ' ' :: x.written

/-- The tokens of a pair. -/
def tokens (x : Line) : List Token := [.key, .scalar x.name true, .value, .scalar x.text x.plain]

/-- The pair is read as what it stands for, and written with characters of one byte. -/
structure Good (x : Line) : Prop where
  name : IsName x.name
  value : ReadsAs x.written x.text x.plain
  ascii : ∀ c ∈ x.written, IsAscii c

theorem Good.startsValue {x : Line} (h : x.Good) (rest : List Char) : Lexer.StartsValue (x.written ++ rest) := by
  obtain ⟨c, cs, hcons, hblank, -, hmark⟩ := h.value.starts
  rw [hcons]
  exact ⟨c, cs ++ rest, rfl, hblank, hmark⟩

theorem isAscii_flatMap {lines : List Line} (h : ∀ x ∈ lines, x.Good) : ∀ c ∈ lines.flatMap chars, IsAscii c := by
  intro c hc
  obtain ⟨x, hx, hc⟩ := List.mem_flatMap.mp hc
  have hall : ∀ c ∈ x.chars, IsAscii c := by
    rw [chars, List.forall_mem_append, List.forall_mem_cons, List.forall_mem_cons]
    exact ⟨fun c hc => isAscii_of_isNameChar ((h x hx).name.chars c hc), by decide, by decide, (h x hx).ascii⟩
  exact hall c hc

theorem startsName_flatMap {lines : List Line} (h : ∀ x ∈ lines, x.Good) : StartsName (lines.flatMap chars) := by
  cases lines with
  | nil => nofun
  | cons x lines =>
    rw [List.flatMap_cons, chars, List.append_assoc]
    exact (h x List.mem_cons_self).name.startsName _

/-- The tokens behind a name, up to the end of the text. -/
theorem run_pending {x : Line} (hx : x.Good) {lines : List Line} (hlines : ∀ x ∈ lines, x.Good) {l : Lexer}
    (h : l.Pending x.name (x.written ++ lines.flatMap chars)) {fuel : Nat} (hfuel : 7 * lines.length + 9 ≤ fuel) :
    l.run fuel = .scalar x.name true :: .value :: .scalar x.text x.plain ::
      (lines.flatMap tokens ++ [.blockEnd, .textEnd]) := by
  induction lines generalizing x l fuel with
  | nil =>
    obtain ⟨l', hpassed, hrun⟩ := h.run_value hx.value nofun
    obtain ⟨fuel, rfl⟩ : ∃ k, fuel = k + 9 := ⟨fuel - 9, by simp at hfuel; omega⟩
    rw [hrun, hpassed.run_end]
    rfl
  | cons y lines ih =>
    have hy := hlines y List.mem_cons_self
    obtain ⟨fuel, rfl⟩ : ∃ k, fuel = k + 7 := ⟨fuel - 7, by omega⟩
    obtain ⟨l', hpassed, hrun⟩ := h.run_value hx.value (startsName_flatMap hlines)
    rw [List.flatMap_cons, chars, List.append_assoc, List.cons_append, List.cons_append] at hpassed
    obtain ⟨l'', hpending, hrun'⟩ := hpassed.run_key hy.name (hy.startsValue _)
    rw [hrun, hrun', ih hy (fun z hz => hlines z (List.mem_cons_of_mem y hz)) hpending
      (by simp at hfuel; omega)]
    rfl

theorem length_le_flatMap (lines : List Line) : lines.length ≤ (lines.flatMap chars).length := by
  induction lines with
  | nil => exact Nat.le_refl 0
  | cons x lines ih =>
    rw [List.flatMap_cons, List.length_append, List.length_cons, chars, List.length_append, List.length_cons]
    omega

/-- A text of pairs, one behind the other, is cut into the tokens of its pairs. -/
theorem tokens_flatMap {lines : List Line} (hne : lines ≠ []) (hlines : ∀ x ∈ lines, x.Good) {source : Source}
    (hchars : source.chars = lines.flatMap chars) (hbroken : source.broken = false) :
    Yaml.tokens source = .blockMappingStart :: (lines.flatMap tokens ++ [.blockEnd, .textEnd]) := by
  obtain ⟨x, lines, rfl⟩ := List.exists_cons_of_ne_nil hne
  have hx := hlines x List.mem_cons_self
  have hlength := length_le_flatMap (x :: lines)
  have hcons : source.chars = x.name ++ ':' :: ' ' :: (x.written ++ lines.flatMap chars) := by
    rw [hchars, List.flatMap_cons, chars, List.append_assoc]
    rfl
  obtain ⟨l, hpending, hrun⟩ := Lexer.run_start hcons hbroken hx.name (hx.startsValue _)
  rw [Yaml.tokens, hchars, show 12 * ((x :: lines).flatMap chars).length + 32
      = 12 * ((x :: lines).flatMap chars).length + 28 + 4 from rfl, hrun,
    run_pending hx (fun y hy => hlines y (List.mem_cons_of_mem x hy)) hpending
      (by rw [List.length_cons] at hlength; omega)]
  rfl

end Line

end BlockWorld.Data.Yaml
