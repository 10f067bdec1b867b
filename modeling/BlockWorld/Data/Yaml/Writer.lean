import BlockWorld.Data.Yaml.Field
/-!
Writing texts as YAML scalars. A text stands without quotes if it then reads back as a text, in
single quotes if it is printable, and in double quotes with escapes otherwise. A text of several
lines stands as a literal block if that can hold it.
-/
namespace BlockWorld.Data.Yaml

/-- The words that older versions of the format read as truth values. -/
def isOldBoolean (s : String) : Bool :=
  s ∈ ["y", "Y", "yes", "Yes", "YES", "on", "On", "ON",
    "n", "N", "no", "No", "NO", "off", "Off", "OFF"]

/-- Groups of one or two digits after colons, the first of two below six; the last group may have a
fraction. -/
def isBaseSixtyTail : (fuel : Nat) → List Char → Bool
  | 0, _ => false
  | fuel + 1, cs =>
    let rest := match cs with
      | ':' :: a :: b :: more =>
        if a ≤ '5' && a.isDigit && b.isDigit then some more
        else if a.isDigit then some (b :: more)
        else none
      | [':', a] => if a.isDigit then some [] else none
      | _ => none
    match rest with
    | none => false
    | some [] => true
    | some ('.' :: digits) => digits.all fun c => c.isDigit || c == '_'
    | some more => isBaseSixtyTail fuel more

/-- Whether older versions of the format read a text as a number in base sixty. -/
def isBaseSixty (s : String) : Bool :=
  let cs := match s.toList with
    | '-' :: rest => rest
    | '+' :: rest => rest
    | cs => cs
  match cs with
  | [] => false
  | c :: rest => c.isDigit && isBaseSixtyTail s.length (rest.dropWhile fun c => c.isDigit || c == '_')

/-- Whether a text without quotes stands for itself. -/
def meansText (s : String) : Bool :=
  match resolve true s with
  | .text _ => !isOldBoolean s && !isBaseSixty s
  | _ => false

/-! ## What a text holds -/

/-- The characters that need no escape where their place allows them. -/
def isShown (c : Char) : Bool :=
  let n := c.toNat
  n == 0x0A || (0x20 ≤ n && n ≤ 0x7E) || (0xA0 ≤ n && n ≤ 0xFFFD && n != 0xFEFF)

/-- Whether a character of one kind stands directly in front of one of another. -/
def hasPair (first second : Char → Bool) : List Char → Bool
  | a :: b :: rest => (first a && second b) || hasPair first second (b :: rest)
  | _ => false

/-- Whether a space stands in front of a line end. -/
def hasSpaceBreak (cs : List Char) : Bool := hasPair (· == ' ') isBreak cs

/-- Whether a space stands behind a line end. -/
def hasBreakSpace (cs : List Char) : Bool := hasPair isBreak (· == ' ') cs

/-- Whether no colon stands before a blank or at the end, and no number sign after a blank.
`blank` tells whether a blank came before. -/
def hasNoMark : (blank : Bool) → List Char → Bool
  | _, [] => true
  | blank, c :: rest =>
    !(c == ':' && startsBlank rest) && !(c == '#' && blank) && hasNoMark (isBlankChar c) rest

/-- Whether a text can stand without quotes. -/
def fitsPlain (cs : List Char) : Bool :=
  match cs with
  | [] => true
  | c :: rest =>
    cs.all (fun c => isShown c && !isBreak c) && c != ' ' && cs.getLast? != some ' ' &&
      !(cs.take 3 == ['-', '-', '-'] || cs.take 3 == ['.', '.', '.']) &&
      !(isIndicator c || ((c == '-' || c == '?' || c == ':') && startsBlank rest)) &&
      hasNoMark true cs

/-- Whether a text can stand in single quotes. -/
def fitsSingleQuotes (cs : List Char) : Bool :=
  cs.all isShown && !hasSpaceBreak cs && !hasBreakSpace cs

/-- Whether a text can stand as a literal block. -/
def fitsLiteral (cs : List Char) : Bool :=
  cs.all (fun c => isShown c || c == '\t') && cs.getLast? != some ' ' && !hasSpaceBreak cs

/-! ## Double quotes -/

/-- The upper-case hexadecimal digits of a number. -/
def escapeDigits (width n : Nat) : List Char := (Text.hexDigits width n).map Char.toUpper

/-- The letter of a short escape. -/
def escapeLetter? (n : Nat) : Option Char :=
  [(0x00, '0'), (0x07, 'a'), (0x08, 'b'), (0x09, 't'), (0x0A, 'n'), (0x0B, 'v'), (0x0C, 'f'),
   (0x0D, 'r'), (0x1B, 'e'), (0x22, '"'), (0x5C, '\\'), (0x85, 'N'), (0xA0, '_'), (0x2028, 'L'),
   (0x2029, 'P')].lookup n

/-- The escape of a character. -/
def escapeChar (c : Char) : List Char :=
  let n := c.toNat
  match escapeLetter? n with
  | some letter => ['\\', letter]
  | none =>
    if n ≤ 0xFF then '\\' :: 'x' :: escapeDigits 2 n
    else if n ≤ 0xFFFF then '\\' :: 'u' :: escapeDigits 4 n
    else '\\' :: 'U' :: escapeDigits 8 n

/-- Whether a character is written as it is between double quotes. -/
def standsInQuotes (c : Char) : Bool := isShown c && !isBreak c && c != '"' && c != '\\'

/-- A text in double quotes. Behind a mark of the byte order all of it is escaped. -/
def inDoubleQuotes (cs : List Char) : List Char :=
  let marked := cs.head? == some byteOrderMark
  '"' :: (cs.flatMap (fun c => if standsInQuotes c && !marked then [c] else escapeChar c) ++ ['"'])

/-! ## Lines -/

/-- The indentation of the lines of a scalar. -/
def scalarIndent : List Char := [' ', ' ', ' ', ' ']

/-- Indents the lines of a text that are not empty; `fresh` tells that a line starts here. -/
def indentLines (write : Char → List Char) : (fresh : Bool) → List Char → List Char
  | _, [] => []
  | fresh, c :: rest =>
    if isBreak c then c :: indentLines write true rest
    else (if fresh then scalarIndent else []) ++ write c ++ indentLines write false rest

/-- A text in single quotes, in which a single quote is written twice. -/
def inSingleQuotes (cs : List Char) : List Char :=
  let double (c : Char) : List Char := if c = '\'' then ['\'', '\''] else [c]
  '\'' :: (indentLines double false cs ++ ['\''])

/-- The header of a literal block: the indentation if the text does not show it, and what becomes of
the line ends behind it. -/
def literalHeader (cs : List Char) : List Char :=
  let indent := if cs.head?.any fun c => c == ' ' || isBreak c then ['4'] else []
  let chomping := match cs.reverse with
    | [] => ['-']
    | [c] => if isBreak c then ['+'] else ['-']
    | c :: d :: _ => if !isBreak c then ['-'] else if isBreak d then ['+'] else []
  '|' :: (indent ++ chomping)

/-- A text as a literal block. A line end at its start also ends the header. -/
def literal (cs : List Char) : List Char :=
  literalHeader cs ++ (if startsBreak cs then [] else ['\n']) ++ indentLines (fun c => [c]) true cs

/-- The characters of a text as a scalar. -/
def scalarChars (s : String) : List Char :=
  let cs := s.toList
  if cs.contains '\n' then if fitsLiteral cs then literal cs else inDoubleQuotes cs
  else if !meansText s then inDoubleQuotes cs
  else if fitsPlain cs then cs
  else if fitsSingleQuotes cs then inSingleQuotes cs
  else inDoubleQuotes cs

/-- A text as a scalar up to the end of its last line, which a literal block may hold itself. -/
def scalarLine (s : String) : String :=
  let cs := scalarChars s
  String.ofList (if cs.getLast?.any isBreak then cs else cs ++ ['\n'])

end BlockWorld.Data.Yaml
