import BlockWorld.Data.Yaml.Cursor
/-!
Plain scalars: words without quotes. They end at a colon before a blank, at a comment, at a marker
between documents, at the marks of a flow collection they are in, and at a line that stands too far
to the left.
-/
namespace BlockWorld.Data.Yaml

/-- The word at the start of a text. -/
def plainWord (flow : Bool) : List Char → List Char
  | [] => []
  | c :: rest =>
    if isBlankChar c || isBreak c || (c == ':' && startsBlank rest) || (flow && isFlowMark c) then []
    else c :: plainWord flow rest

/-- A scalar that was read: its text, whether the place behind it is on a later line, and that
place. -/
structure Lexeme where
  text : List Char
  crossed : Bool
  after : Cursor

/-- Reads the words of a plain scalar from column `indent` on. `done` is the text so far in reverse, and
`joint` is what stands between it and the next word. -/
def plainWords (flow : Bool) (indent : Int) : (fuel : Nat) → (done joint : List Char) →
    (crossed : Bool) → Cursor → Except Malformed Lexeme
  | 0, _, _, _, _ => .error ⟨⟩
  | fuel + 1, done, joint, crossed, c =>
    if c.isAtMarker || c.isAt '#' then .ok ⟨done.reverse, crossed, c⟩
    else
      match plainWord flow c.rest with
      | [] => .ok ⟨done.reverse, crossed, c⟩
      | word =>
        let done := (joint ++ word).reverse ++ done
        let c := c.skip word.length
        match c.gap? indent fuel [] [] with
        | none => .error ⟨⟩
        | some g =>
          let crossed := !g.breaks.isEmpty
          if !flow && crossed && (g.after.column : Int) < indent then
            .ok ⟨done.reverse, crossed, g.after⟩
          else plainWords flow indent fuel done g.joint crossed g.after

/-- Reads a plain scalar inside a collection at column `indent - 1`. -/
def plainScalar (fuel : Nat) (flow : Bool) (indent : Int) (c : Cursor) : Except Malformed Lexeme :=
  plainWords flow indent fuel [] [] false c

/-- Whether a plain scalar can start here. -/
def startsPlain (flow : Bool) : List Char → Bool
  | [] => false
  | c :: rest =>
    if c = '-' then !(rest.head?.any isBlankChar)
    else if c = '?' || c = ':' then !flow && !startsBlank rest
    else !(isIndicator c || isBlankChar c || isBreak c)

end BlockWorld.Data.Yaml
