import BlockWorld.Data.Yaml.Character
/-!
A place in a YAML text, and what is passed between two tokens: blanks, line ends and comments.
-/
namespace BlockWorld.Data.Yaml

/-- The text still to be read and the place of its first character. -/
structure Cursor where
  rest : List Char
  index : Nat
  line : Nat
  column : Nat

namespace Cursor

/-- The start of a text. -/
def start (cs : List Char) : Cursor := ⟨cs, 0, 0, 0⟩

/-- Skips some characters of one line. -/
def skip (c : Cursor) (n : Nat) : Cursor := ⟨c.rest.drop n, c.index + n, c.line, c.column + n⟩

/-- Skips a line end. -/
def skipLine (c : Cursor) : Cursor :=
  match lineEnd? c.rest with
  | some (_, n, rest) => ⟨rest, c.index + n, c.line + 1, 0⟩
  | none => c

/-- Skips the characters that satisfy a condition; line ends must not be among them. -/
def skipWhile (p : Char → Bool) (c : Cursor) : Cursor := c.skip (c.rest.takeWhile p).length

/-- Whether a given character comes next. -/
def isAt (c : Cursor) (ch : Char) : Bool := c.rest.head? == some ch

/-- Whether a marker that divides documents comes next. -/
def isAtMarker (c : Cursor) : Bool := c.column == 0 && (isMarker '-' c.rest || isMarker '.' c.rest)

/-- Goes to the end of the line. -/
def toLineEnd (c : Cursor) : Cursor := c.skipWhile fun ch => !isBreak ch

/-- Passes `n` characters, line ends among them. -/
def pass : (n : Nat) → Cursor → Cursor
  | 0, c => c
  | n + 1, c =>
    match c.rest with
    | '\r' :: '\n' :: _ => pass n { c with rest := c.rest.drop 1, index := c.index + 1 }
    | ch :: _ => if isBreak ch then pass n c.skipLine else pass n (c.skip 1)
    | [] => c

end Cursor

/-- How far ahead a further comment is looked for. -/
def commentReach : Nat := 511

/-- The number of blanks and line ends in front of the next comment, if nothing else is there. -/
def commentAhead? : (reach : Nat) → List Char → Option Nat
  | 0, _ => none
  | _, [] => none
  | reach + 1, c :: rest =>
    if c = '#' then some 0
    else if isBlankChar c || c = '\n' || c = '\r' then (commentAhead? reach rest).map (· + 1)
    else none

/-- Passes a comment and all comments that follow with nothing but blanks and line ends between
them; stops at the end of the last comment's line. -/
def Cursor.passComments : (fuel : Nat) → Cursor → Cursor
  | 0, c => c
  | fuel + 1, c =>
    let c := c.toLineEnd
    let ahead := match c.rest with
      | '\n' :: more => commentAhead? commentReach more
      | '\r' :: more => commentAhead? commentReach more
      | _ => none
    match ahead with
    | some n => passComments fuel (c.pass (n + 1))
    | none => c

/-- Passes a comment on the line of the token before it. -/
def Cursor.passLineComment (c : Cursor) : Cursor :=
  let blanks := c.rest.takeWhile isBlankChar
  if blanks.length ≤ commentReach && (c.skip blanks.length).isAt '#' then c.toLineEnd else c

/-- Goes to the next token. `marked` tells where the first character of a line does not count, and
`keys` whether a key could start here, which a line end outside of flow collections always allows.
A tab is no indentation: outside of flow collections it is only passed where no key could start. -/
def Cursor.toToken (marked : Cursor → Bool) (flow : Bool) :
    (fuel : Nat) → (keys : Bool) → Cursor → Bool × Cursor
  | 0, keys, c => (keys, c)
  | fuel + 1, keys, c =>
    let c := if c.column = 0 && marked c then c.skip 1 else c
    let c := c.skipWhile fun ch => ch == ' ' || ((flow || !keys) && ch == '\t')
    let c := if c.isAt '#' then c.passComments fuel else c
    match c.rest with
    | ch :: _ => if isBreak ch then toToken marked flow fuel (keys || !flow) c.skipLine else (keys, c)
    | [] => (keys, c)

/-- What stands between two words of a scalar: the blanks if no line ends there, else the line ends as
they count. -/
structure Gap where
  blanks : List Char
  breaks : List Char
  after : Cursor

/-- What a gap counts for: one line end is a space, and of several the first counts for nothing,
unless it is a separator that always stands for itself. -/
def Gap.joint (g : Gap) : List Char :=
  match g.breaks with
  | [] => g.blanks
  | first :: more => if first = '\n' then (if more.isEmpty then [' '] else more) else first :: more

/-- Reads the gap between two words. Behind a line end, a tab must not stand in front of column
`indent`. -/
def Cursor.gap? (indent : Int) : (fuel : Nat) → (blanks breaks : List Char) → Cursor → Option Gap
  | 0, _, _, _ => none
  | fuel + 1, blanks, breaks, c =>
    match c.rest with
    | [] => some ⟨blanks, breaks, c⟩
    | ch :: _ =>
      if isBlankChar ch then
        if breaks.isEmpty then gap? indent fuel (blanks ++ [ch]) [] (c.skip 1)
        else if ch = '\t' ∧ (c.column : Int) < indent then none
        else gap? indent fuel [] breaks (c.skip 1)
      else
        match lineEnd? c.rest with
        | some (counts, _, _) => gap? indent fuel [] (breaks ++ [counts]) c.skipLine
        | none => some ⟨blanks, breaks, c⟩

end BlockWorld.Data.Yaml
