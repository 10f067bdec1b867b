/-!
The characters that divide a YAML text: blanks, line ends and the marks that have a meaning of
their own. A text is a list of characters; its end counts as a line end where a line has to end.
-/
namespace BlockWorld.Data.Yaml

/-- A text that is no YAML document. -/
structure Malformed where
  deriving DecidableEq, Repr

/-- A space or a tab. -/
def isBlankChar (c : Char) : Bool := c == ' ' || c == '\t'

/-- A line end, or a part of one. -/
def isBreak (c : Char) : Bool :=
  c == '\n' || c == '\r' || c == '\u0085' || c == '\u2028' || c == '\u2029'

/-- The mark of the byte order, which may stand in front of a text. -/
def byteOrderMark : Char := Char.ofNat 0xFEFF

/-- Whether a text is at its end or at the end of a line. -/
def startsBreak : List Char → Bool
  | [] => true
  | c :: _ => isBreak c

/-- Whether a text is at its end, at a blank or at the end of a line. -/
def startsBlank : List Char → Bool
  | [] => true
  | c :: _ => isBlankChar c || isBreak c

/-- A line end at the start of a text: how it counts inside a scalar, the number of its characters
and the text behind it. Only the line and paragraph separators count as themselves. -/
def lineEnd? : List Char → Option (Char × Nat × List Char)
  | '\r' :: '\n' :: rest => some ('\n', 2, rest)
  | c :: rest =>
    if c = '\u2028' ∨ c = '\u2029' then some (c, 1, rest)
    else if isBreak c then some ('\n', 1, rest)
    else none
  | [] => none

/-- The characters that end a plain scalar inside a flow collection. -/
def isFlowMark (c : Char) : Bool :=
  c == ',' || c == '?' || c == '[' || c == ']' || c == '\x7b' || c == '\x7d'

/-- The characters that no plain scalar starts with. -/
def isIndicator (c : Char) : Bool :=
  c == ',' || c == '[' || c == ']' || c == '\x7b' || c == '\x7d' || c == '#' || c == '&' ||
    c == '*' || c == '!' || c == '|' || c == '>' || c == '\'' || c == '"' || c == '%' ||
    c == '@' || c == Char.ofNat 0x60

/-- The characters of anchors, tag handles and names of directives. -/
def isWordChar (c : Char) : Bool := c.isAlphanum || c == '_' || c == '-'

/-- Whether a text starts with a marker of three equal characters, which divides documents. -/
def isMarker (m : Char) : List Char → Bool
  | a :: b :: c :: rest => a == m && b == m && c == m && startsBlank rest
  | _ => false

/-- The characters a text may hold. -/
def isAllowed (c : Char) : Bool :=
  let n := c.toNat
  n == 0x09 || n == 0x0A || n == 0x0D || (0x20 ≤ n && n ≤ 0x7E) || n == 0x85 ||
    (0xA0 ≤ n && n ≤ 0xFFFD) || 0x10000 ≤ n

end BlockWorld.Data.Yaml
