import Std.Data.TreeMap
import BlockWorld.Data.Yaml.Lexeme.Block
import BlockWorld.Data.Yaml.Source
import BlockWorld.Data.Yaml.Token
/-!
Cutting a YAML text into tokens. A key without a sign is only known by the colon behind it, so tokens
wait in a queue: the token of a key is put in front of a token that a colon makes one. Where a key
could start, its place is kept until it is clear that no colon follows, which has to stand on the
same line and not too far behind. Two further tokens are always read ahead.

A token is held back by its number, under which the collection is noted whose key it may start. This
note is taken back when the key is given up or found, and when a flow collection ends the note on the
last key inside it. An empty one has no such key and takes the note on its own bracket with it, so that
the bracket may be given out before a colon; the token of the key then comes last.
-/
namespace BlockWorld.Data.Yaml

/-- The last place in a collection where a key could start. -/
structure KeyStart where
  /-- Whether a colon may still make a key of it. -/
  possible : Bool
  /-- Nothing but a key can stand here. -/
  required : Bool
  /-- The number of its token. -/
  number : Nat
  place : Cursor

/-- How far behind its start the colon of a key may stand. -/
def keyReach : Nat := 1024

/-- Whether a colon at a place is near enough to make a key of what starts here. -/
def KeyStart.reaches (k : KeyStart) (c : Cursor) : Bool :=
  k.place.line == c.line && c.index ≤ k.place.index + keyReach

/-- Whether a key may still start here when the text has been read up to a place. -/
def KeyStart.isOpen (k : KeyStart) (c : Cursor) : Except Malformed Bool :=
  if !k.possible then .ok false
  else if k.reaches c then .ok true
  else if k.required then .error ⟨⟩
  else .ok false

/-- The place where no key starts any more. -/
def KeyStart.giveUp (k : KeyStart) : KeyStart := { k with possible := false }

/-- A text that is partly cut into tokens. -/
structure Lexer where
  source : Source
  /-- More than the number of its characters. -/
  size : Nat
  cursor : Cursor
  /-- The tokens that wait, the oldest first. -/
  queue : List Token
  /-- The number of the oldest token that waits. -/
  given : Nat
  /-- How many flow collections are open. -/
  flow : Nat
  /-- The column of the innermost block collection, and those of the ones around it. -/
  indent : Int
  indents : List Int
  /-- For each open flow collection, the innermost first, and for what is outside of them where a key may
  have started. -/
  keys : List KeyStart
  /-- The numbers of tokens that may start keys, each with the number of flow collections around the one
  that the key belongs to. -/
  held : Std.TreeMap Nat Nat
  /-- Whether a key may start at the next token. -/
  keyAllowed : Bool

namespace Lexer

/-- How deep collections may be nested. -/
def maxDepth : Nat := 10000

/-- The start of a text; its own start counts as a token that was given out. -/
def start (source : Source) : Lexer where
  source := source
  size := source.chars.length + 4
  cursor := .start source.chars
  queue := []
  given := 0
  flow := 0
  indent := -1
  indents := []
  keys := [⟨false, false, 0, .start source.chars⟩]
  held := ∅
  keyAllowed := true

/-- Whether the first character of a line does not count at a place: behind a second mark of the byte
order this goes for all lines of the first piece. -/
def isMarked (l : Lexer) (c : Cursor) : Bool :=
  l.source.chars.head? == some byteOrderMark && c.index + 3 < l.source.first &&
    (c.rest.take 3).length == 3

/-! ## The queue -/

/-- Adds a token behind which a comment may stand. -/
def emit (l : Lexer) (t : Token) (after : Cursor) : Lexer :=
  { l with queue := l.queue ++ [t], cursor := after.passLineComment }

/-- Adds a token that has no comment behind it. -/
def emitBare (l : Lexer) (t : Token) (after : Cursor) : Lexer :=
  { l with queue := l.queue ++ [t], cursor := after }

/-- The number of the next token. -/
def nextNumber (l : Lexer) : Nat := l.given + l.queue.length

/-- Puts a token in front of the one with a given number, or last if that one has been given out. -/
def insert (l : Lexer) (number : Nat) (t : Token) : Lexer :=
  if number < l.given then { l with queue := l.queue ++ [t] }
  else { l with queue := l.queue.take (number - l.given) ++ t :: l.queue.drop (number - l.given) }

/-! ## Indentation -/

/-- Starts a block collection with a token if the column is to the right of the innermost one. -/
def roll (l : Lexer) (column number : Nat) (t : Token) : Except Malformed Lexer :=
  if l.flow = 0 ∧ l.indent < column then
    if maxDepth ≤ l.indents.length then .error ⟨⟩
    else .ok { l.insert number t with indent := column, indents := l.indent :: l.indents }
  else .ok l

/-- The block collections that end left of a column. -/
def unrolled (column : Int) : (indent : Int) → (indents : List Int) → List Token × Int × List Int
  | indent, [] => ([], indent, [])
  | indent, outer :: indents =>
    if column < indent then
      let (ends, rest) := unrolled column outer indents
      (.blockEnd :: ends, rest)
    else ([], indent, outer :: indents)

/-- Ends the block collections left of a column. -/
def unroll (l : Lexer) (column : Int) : Lexer :=
  if l.flow = 0 then
    let (ends, indent, indents) := unrolled column l.indent l.indents
    { l with queue := l.queue ++ ends, indent, indents }
  else l

/-! ## Keys -/

/-- Sets where a key of the innermost collection may have started. -/
def setKey (l : Lexer) (k : KeyStart) : Lexer := { l with keys := k :: l.keys.drop 1 }

/-- Takes back what is noted on a token. -/
def release (l : Lexer) (number : Nat) : Lexer :=
  { l with held := l.held.erase number }

/-- Gives up a key that may have started. -/
def removeKey (l : Lexer) : Except Malformed Lexer :=
  match l.keys.head? with
  | some k =>
    if !k.possible then .ok l
    else if k.required then .error ⟨⟩
    else .ok ((l.setKey k.giveUp).release k.number)
  | none => .ok l

/-- Keeps the current place as the start of a key, if one may start. -/
def saveKey (l : Lexer) : Except Malformed Lexer :=
  if l.keyAllowed then do
    let l ← l.removeKey
    let number := l.nextNumber
    let l := l.setKey ⟨true, l.flow = 0 && l.indent = l.cursor.column, number, l.cursor⟩
    .ok { l with held := l.held.insert number l.flow }
  else .ok l

/-- The start of the key that a colon at the current place belongs to. -/
def openKey? (l : Lexer) : Except Malformed (Option KeyStart) :=
  match l.keys.head? with
  | some k => do return if ← k.isOpen l.cursor then some k else none
  | none => .ok none

/-- Gives up the key of the innermost collection without a change to what is noted on its token. -/
def forgetKey (l : Lexer) : Lexer :=
  match l.keys with
  | k :: keys => { l with keys := k.giveUp :: keys }
  | [] => l

/-! ## Tokens -/

/-- Leaves all block collections, as in front of a document. -/
def toOutside (l : Lexer) : Except Malformed Lexer := do
  let l ← (l.unroll (-1)).removeKey
  .ok { l with keyAllowed := false }

/-- The end of the text. It stands at the start of a line. -/
def fetchEnd (l : Lexer) : Except Malformed Lexer := do
  let c := l.cursor
  let c := if c.column = 0 then c else { c with line := c.line + 1, column := 0 }
  let l ← { l with cursor := c }.toOutside
  .ok (l.emit .textEnd c)

def fetchDirective (l : Lexer) : Except Malformed Lexer := do
  let l ← l.toOutside
  let (d, after) ← directiveLexeme l.size l.cursor
  .ok (l.emitBare (.directive d) after)

def fetchMarker (l : Lexer) (t : Token) : Except Malformed Lexer := do
  let l ← l.toOutside
  .ok (l.emit t (l.cursor.skip 3))

def fetchFlowStart (l : Lexer) (t : Token) : Except Malformed Lexer := do
  let l ← l.saveKey
  if maxDepth ≤ l.flow then throw ⟨⟩
  let keys := ⟨false, false, l.nextNumber, l.cursor⟩ :: l.keys
  .ok ({ l with flow := l.flow + 1, keys, keyAllowed := true }.emit t (l.cursor.skip 1))

def fetchFlowEnd (l : Lexer) (t : Token) : Except Malformed Lexer := do
  let l ← l.removeKey
  let l := match l.flow, l.keys with
    | flow + 1, k :: keys => { l.release k.number with flow, keys }
    | _, _ => l
  .ok ({ l with keyAllowed := false }.emit t (l.cursor.skip 1))

def fetchFlowEntry (l : Lexer) : Except Malformed Lexer := do
  let l ← l.removeKey
  .ok ({ l with keyAllowed := true }.emit .flowEntry (l.cursor.skip 1))

/-- Outside of flow collections, starts a block collection, for which a key must be allowed here. -/
def rollHere (l : Lexer) (t : Token) : Except Malformed Lexer :=
  if l.flow = 0 then
    if l.keyAllowed then l.roll l.cursor.column l.nextNumber t else .error ⟨⟩
  else .ok l

def fetchBlockEntry (l : Lexer) : Except Malformed Lexer := do
  let l ← (← l.rollHere .blockSequenceStart).removeKey
  .ok ({ l with keyAllowed := true }.emitBare .blockEntry (l.cursor.skip 1))

def fetchKey (l : Lexer) : Except Malformed Lexer := do
  let l ← (← l.rollHere .blockMappingStart).removeKey
  .ok ({ l with keyAllowed := l.flow = 0 }.emit .key (l.cursor.skip 1))

/-- The colon in front of a value; it may make a key of what stands in front of it. -/
def fetchValue (l : Lexer) : Except Malformed Lexer := do
  match ← l.openKey? with
  | some k =>
    let l ← (l.insert k.number .key).roll k.place.column k.number .blockMappingStart
    let l := (l.setKey k.giveUp).release k.number
    .ok ({ l with keyAllowed := false }.emit .value (l.cursor.skip 1))
  | none =>
    let l ← l.forgetKey.rollHere .blockMappingStart
    .ok ({ l with keyAllowed := l.flow = 0 }.emit .value (l.cursor.skip 1))

/-- An anchor or an alias. -/
def fetchAnchor (l : Lexer) (t : List Char → Token) : Except Malformed Lexer := do
  let l ← l.saveKey
  let x ← anchorName l.cursor
  .ok ({ l with keyAllowed := false }.emit (t x.text) x.after)

def fetchTag (l : Lexer) : Except Malformed Lexer := do
  let l ← l.saveKey
  let (t, after) ← tagLexeme l.size l.cursor
  .ok ({ l with keyAllowed := false }.emit (.tag t) after)

def fetchBlockScalar (l : Lexer) (literal : Bool) : Except Malformed Lexer := do
  let l ← l.removeKey
  let x ← blockScalar l.size literal l.indent l.cursor
  .ok ({ l with keyAllowed := true }.emitBare (.scalar x.text false) x.after)

def fetchQuoted (l : Lexer) (single : Bool) : Except Malformed Lexer := do
  let l ← l.saveKey
  let x ← quotedScalar l.size single l.cursor
  .ok ({ l with keyAllowed := false }.emit (.scalar x.text false) x.after)

def fetchPlain (l : Lexer) : Except Malformed Lexer := do
  let l ← l.saveKey
  let x ← plainScalar l.size (0 < l.flow) (l.indent + 1) l.cursor
  let l := { l with keyAllowed := x.crossed }
  .ok (if x.crossed then l.emitBare (.scalar x.text true) x.after
    else l.emit (.scalar x.text true) x.after)

/-- Reads the token at the current place, which starts with `c`. -/
def fetchAt (l : Lexer) (c : Char) (rest : List Char) : Except Malformed Lexer :=
  let inFlow : Bool := 0 < l.flow
  if l.cursor.column = 0 ∧ c = '%' then l.fetchDirective
  else if l.cursor.column = 0 ∧ isMarker '-' (c :: rest) then l.fetchMarker .documentStart
  else if l.cursor.column = 0 ∧ isMarker '.' (c :: rest) then l.fetchMarker .documentEnd
  else if c = '[' then l.fetchFlowStart .flowSequenceStart
  else if c = '\x7b' then l.fetchFlowStart .flowMappingStart
  else if c = ']' then l.fetchFlowEnd .flowSequenceEnd
  else if c = '\x7d' then l.fetchFlowEnd .flowMappingEnd
  else if c = ',' then l.fetchFlowEntry
  else if c = '-' ∧ startsBlank rest then l.fetchBlockEntry
  else if c = '?' ∧ (inFlow || startsBlank rest) then l.fetchKey
  else if c = ':' ∧ (inFlow || startsBlank rest) then l.fetchValue
  else if c = '*' then l.fetchAnchor .alias
  else if c = '&' then l.fetchAnchor .anchor
  else if c = '!' then l.fetchTag
  else if c = '|' ∧ !inFlow then l.fetchBlockScalar true
  else if c = '>' ∧ !inFlow then l.fetchBlockScalar false
  else if c = '\'' then l.fetchQuoted true
  else if c = '"' then l.fetchQuoted false
  else if startsPlain inFlow (c :: rest) then l.fetchPlain
  else .error ⟨⟩

/-- The number of characters that have to be readable at the start of a token. -/
def reach : Nat := 4

/-- Reads the next token into the queue. -/
def fetch (l : Lexer) : Except Malformed Lexer :=
  let (keyAllowed, c) := l.cursor.toToken l.isMarked (0 < l.flow) l.size l.keyAllowed
  let l := { l with keyAllowed, cursor := c }.unroll c.column
  if l.source.broken && (c.rest.take reach).length < reach then .error ⟨⟩
  else
    match c.rest with
    | [] => l.fetchEnd
    | ch :: rest => l.fetchAt ch rest

/-! ## Giving tokens out -/

/-- Whether the oldest token may still become a key. A key that cannot start there any more is given
up. -/
def holdsBack (l : Lexer) : Except Malformed (Bool × Lexer) :=
  match l.held[l.given]? with
  | none => .ok (false, l)
  | some depth =>
    let i := l.flow - depth
    match l.keys[i]? with
    | none => .ok (false, l)
    | some k => do
      if ← k.isOpen l.cursor then .ok (true, l)
      else .ok (false, { l with keys := l.keys.set i k.giveUp })

/-- The number of tokens that have to wait behind the one that is given out. -/
def tokensAhead : Nat := 2

/-- The tokens from here on. They end with the end of the text or with a fault. -/
def run : (fuel : Nat) → Lexer → List Token
  | 0, _ => [.fault]
  | fuel + 1, l =>
    match l.queue with
    | t :: more =>
      if more.length < tokensAhead then
        match l.fetch with
        | .ok l => run fuel l
        | .error _ => [.fault]
      else
        match l.holdsBack with
        | .error _ => [.fault]
        | .ok (true, l) =>
          match l.fetch with
          | .ok l => run fuel l
          | .error _ => [.fault]
        | .ok (false, l) =>
          if t = .textEnd then [.textEnd]
          else t :: run fuel { l with queue := more, given := l.given + 1 }
    | [] =>
      match l.fetch with
      | .ok l => run fuel l
      | .error _ => [.fault]

end Lexer

/-- The tokens of a text. -/
def tokens (source : Source) : List Token :=
  (Lexer.start source).run (12 * source.chars.length + 32)

end BlockWorld.Data.Yaml
