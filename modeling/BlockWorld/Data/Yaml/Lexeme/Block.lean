import BlockWorld.Data.Yaml.Lexeme.Plain
/-!
Block scalars: lines that are indented more than what they belong to. In a literal one every line
counts as it is; in a folded one the ends of lines that start without a blank become spaces. The
header tells what becomes of the line ends behind the last line, and may give the indentation.
-/
namespace BlockWorld.Data.Yaml

/-- What becomes of the line ends at the end of a block scalar. -/
inductive Chomping where
  /-- None counts. -/
  | strip
  /-- The first counts. -/
  | clip
  /-- All count. -/
  | keep

/-- The way of chomping behind its sign. -/
def chomping? : Option Char → Option Chomping
  | some '+' => some .keep
  | some '-' => some .strip
  | _ => none

/-- The indentation behind its digit. -/
def increment? (c : Option Char) : Option Nat :=
  match c with
  | some d => if d.isDigit then some (d.toNat - '0'.toNat) else none
  | none => none

/-- The header of a block scalar: a sign and a digit in any order, both of which may be missing; and the
number of its characters. An indentation of zero is none. -/
def blockHeader (cs : List Char) : Chomping × Option Nat × Nat :=
  match chomping? cs[0]?, increment? cs[0]? with
  | some chomping, _ =>
    match increment? cs[1]? with
    | some n => (chomping, some n, 2)
    | none => (chomping, none, 1)
  | none, some n =>
    match chomping? cs[1]? with
    | some chomping => (chomping, some n, 2)
    | none => (.clip, some n, 1)
  | none, none => (.clip, none, 0)

/-- Whether a column is still indentation; an `indent` of zero is not known yet. -/
def isIndentation (indent column : Nat) : Bool := indent == 0 || column < indent

/-- Passes the spaces of an indentation. -/
def Cursor.skipIndent (indent : Nat) : (fuel : Nat) → Cursor → Cursor
  | 0, c => c
  | fuel + 1, c =>
    if isIndentation indent c.column && c.isAt ' ' then skipIndent indent fuel (c.skip 1) else c

/-- Passes empty lines and the indentation of the next line: the line ends, the greatest column
reached and the place. A tab must not stand in the indentation. -/
def blockBreaks (indent : Nat) : (fuel : Nat) → (breaks : List Char) → (deepest : Nat) → Cursor →
    Except Malformed (List Char × Nat × Cursor)
  | 0, _, _, _ => .error ⟨⟩
  | fuel + 1, breaks, deepest, c =>
    let c := c.skipIndent indent fuel
    let deepest := max deepest c.column
    if isIndentation indent c.column && c.isAt '\t' then .error ⟨⟩
    else
      match lineEnd? c.rest with
      | some (counts, _, _) => blockBreaks indent fuel (breaks ++ [counts]) deepest c.skipLine
      | none => .ok (breaks, deepest, c)

/-- Whether a line starts with a blank. -/
def Cursor.isAtBlank (c : Cursor) : Bool := c.rest.head?.any isBlankChar

/-- Reads the lines of a block scalar. `done` is the text so far in reverse, `last` the end of the line
before, which is none at first, `breaks` are those of empty lines behind it, and `blank` tells whether
that line started with a blank. -/
def blockLines (literal : Bool) (indent : Nat) : (fuel : Nat) → (done last breaks : List Char) →
    (blank : Bool) → Cursor → Except Malformed (List Char × List Char × List Char × Cursor)
  | 0, _, _, _, _, _ => .error ⟨⟩
  | fuel + 1, done, last, breaks, blank, c =>
    if c.column ≠ indent || c.rest.isEmpty then .ok (done.reverse, last, breaks, c)
    else
      let folds := !literal && !blank && !c.isAtBlank && last.head? == some '\n'
      let joint := if folds then (if breaks.isEmpty then [' '] else []) else last
      let after := c.toLineEnd
      let line := c.rest.takeWhile fun ch => !isBreak ch
      let last := match lineEnd? after.rest with
        | some (counts, _, _) => [counts]
        | none => []
      match blockBreaks indent fuel [] 0 after.skipLine with
      | .error e => .error e
      | .ok (further, _, next) =>
        blockLines literal indent fuel ((joint ++ breaks ++ line).reverse ++ done) last further
          c.isAtBlank next

/-- Reads a block scalar inside a collection at column `parent`, the cursor being at its sign. -/
def blockScalar (fuel : Nat) (literal : Bool) (parent : Int) (c : Cursor) :
    Except Malformed Lexeme := do
  let c := c.skip 1
  let (chomping, increment, n) := blockHeader c.rest
  if increment == some 0 then throw ⟨⟩
  let c := (c.skip n).skipWhile isBlankChar
  let c := if c.isAt '#' then c.toLineEnd else c
  if !startsBreak c.rest then throw ⟨⟩
  let given := match increment with
    | some n => parent.toNat + n
    | none => 0
  let (breaks, deepest, c) ← blockBreaks given fuel [] 0 c.skipLine
  let indent := if given = 0 then max (max deepest (parent + 1).toNat) 1 else given
  let (text, last, breaks, c) ← blockLines literal indent fuel [] [] breaks false c
  let tail := match chomping with
    | .strip => []
    | .clip => last
    | .keep => last ++ breaks
  .ok ⟨text ++ tail, true, c⟩

end BlockWorld.Data.Yaml
