import BlockWorld.Data.Yaml.Lexeme.Quoted
/-!
Names that stand in front of nodes and documents: anchors, aliases, tags and directives. Escaped
bytes of a tag stand for the characters of the same number, which is enough to tell tags apart.
-/
namespace BlockWorld.Data.Yaml

/-- The characters that may follow an anchor or an alias directly. -/
def endsAnchor (cs : List Char) : Bool :=
  startsBlank cs || cs.head?.any fun c =>
    c == '?' || c == ':' || c == ',' || c == ']' || c == '\x7d' || c == '%' || c == '@' ||
      c == Char.ofNat 0x60

/-- Reads the name behind the sign of an anchor or an alias. -/
def anchorName (c : Cursor) : Except Malformed Lexeme :=
  let name := (c.rest.drop 1).takeWhile isWordChar
  let after := c.skip (name.length + 1)
  if name.isEmpty || !endsAnchor after.rest then .error ⟨⟩ else .ok ⟨name, false, after⟩

/-! ## Tags -/

/-- A tag as it is written: a handle, which a directive gives a meaning, and the rest. -/
structure Tag where
  handle : List Char
  suffix : List Char
  deriving DecidableEq

/-- The characters of a tag. -/
def isTagChar (c : Char) : Bool :=
  isWordChar c || c == ';' || c == '/' || c == '?' || c == ':' || c == '@' || c == '&' || c == '=' ||
    c == '+' || c == '$' || c == ',' || c == '.' || c == '%' || c == '!' || c == '~' || c == '*' ||
    c == '\'' || c == '(' || c == ')' || c == '[' || c == ']'

/-- The number of bytes of a character by its first byte in UTF-8; zero if none starts so. -/
def leadWidth (b : Nat) : Nat :=
  if b < 0x80 then 1
  else if b / 32 = 6 then 2
  else if b / 16 = 14 then 3
  else if b / 8 = 30 then 4
  else 0

/-- An escaped byte: a percent sign and two digits. -/
def escapedByte? (cs : List Char) : Option Nat :=
  match cs with
  | '%' :: a :: b :: _ => hexNumber? [a, b]
  | _ => none

/-- Further escaped bytes of a character. -/
def escapedTail? : (n : Nat) → List Char → Option (List Char × List Char)
  | 0, cs => some ([], cs)
  | n + 1, cs => do
    let b ← escapedByte? cs
    if b / 64 ≠ 2 then none
    let (more, rest) ← escapedTail? n (cs.drop 3)
    some (Char.ofNat b :: more, rest)

/-- A character of escaped bytes. -/
def escapedChar? (cs : List Char) : Option (List Char × List Char) := do
  let b ← escapedByte? cs
  if leadWidth b = 0 then none
  let (more, rest) ← escapedTail? (leadWidth b - 1) (cs.drop 3)
  some (Char.ofNat b :: more, rest)

/-- The characters at the start of a text that belong to a tag. -/
def tagChars : (fuel : Nat) → List Char → Except Malformed (List Char)
  | 0, _ => .error ⟨⟩
  | _, [] => .ok []
  | fuel + 1, c :: rest =>
    if !isTagChar c then .ok []
    else if c = '%' then
      match escapedChar? (c :: rest) with
      | none => .error ⟨⟩
      | some (found, rest) => do .ok (found ++ (← tagChars fuel rest))
    else do .ok (c :: (← tagChars fuel rest))

/-- Reads the rest of a tag behind `head`; a tag must not be empty. -/
def tagSuffix (fuel : Nat) (head : List Char) (c : Cursor) : Except Malformed (List Char × Cursor) := do
  let found ← tagChars fuel c.rest
  if found.isEmpty && head.isEmpty then throw ⟨⟩
  .ok (head.drop 1 ++ found, c.skipWhile isTagChar)

/-- The handle of a tag at the start of a text. -/
def tagHandle (cs : List Char) : List Char :=
  let word := '!' :: (cs.drop 1).takeWhile isWordChar
  if cs[word.length]? = some '!' then word ++ ['!'] else word

/-- Reads a tag, the cursor being at its sign. -/
def tagLexeme (fuel : Nat) (c : Cursor) : Except Malformed (Tag × Cursor) := do
  let (tag, after) ←
    if c.rest[1]? = some '<' then do
      let (suffix, after) ← tagSuffix fuel [] (c.skip 2)
      if !after.isAt '>' then throw ⟨⟩
      pure ((⟨[], suffix⟩, after.skip 1) : Tag × Cursor)
    else do
      let handle := tagHandle c.rest
      let after := c.skip handle.length
      if 1 < handle.length && handle.getLast? == some '!' then
        let (suffix, after) ← tagSuffix fuel [] after
        pure (⟨handle, suffix⟩, after)
      else
        let (suffix, after) ← tagSuffix fuel handle after
        pure (if suffix.isEmpty then ⟨[], ['!']⟩ else ⟨['!'], suffix⟩, after)
  if startsBlank after.rest then .ok (tag, after) else .error ⟨⟩

/-! ## Directives -/

/-- What is said in front of a document. -/
inductive Directive where
  | version (major minor : Nat)
  | tag (handle start : List Char)
  deriving DecidableEq

/-- A part of a version, which has one or two digits. -/
def versionNumber (c : Cursor) : Except Malformed (Nat × Cursor) :=
  let digits := c.rest.takeWhile Char.isDigit
  if digits.isEmpty || 2 < digits.length then .error ⟨⟩
  else .ok (digits.foldl (fun n d => n * 10 + (d.toNat - '0'.toNat)) 0, c.skip digits.length)

/-- The value of a directive. -/
def directiveValue (fuel : Nat) (name : List Char) (c : Cursor) :
    Except Malformed (Directive × Cursor) := do
  if name = ['Y', 'A', 'M', 'L'] then
    let (major, c) ← versionNumber c
    if !c.isAt '.' then throw ⟨⟩
    let (minor, c) ← versionNumber (c.skip 1)
    .ok (.version major minor, c)
  else if name = ['T', 'A', 'G'] then
    if !c.isAt '!' then throw ⟨⟩
    let handle := tagHandle c.rest
    if 1 < handle.length && handle.getLast? != some '!' then throw ⟨⟩
    let c := c.skip handle.length
    if !c.rest.head?.any isBlankChar then throw ⟨⟩
    let (start, c) ← tagSuffix fuel [] (c.skipWhile isBlankChar)
    if !startsBlank c.rest then throw ⟨⟩
    .ok (.tag handle start, c)
  else throw ⟨⟩

/-- Reads a directive up to the next line, the cursor being at its sign. -/
def directiveLexeme (fuel : Nat) (c : Cursor) : Except Malformed (Directive × Cursor) := do
  let name := (c.rest.drop 1).takeWhile isWordChar
  let c := c.skip (name.length + 1)
  if !startsBlank c.rest then throw ⟨⟩
  let (d, c) ← directiveValue fuel name (c.skipWhile isBlankChar)
  let c := c.skipWhile isBlankChar
  let c := if c.isAt '#' then c.toLineEnd else c
  if startsBreak c.rest then .ok (d, c.skipLine) else .error ⟨⟩

end BlockWorld.Data.Yaml
