import BlockWorld.Number.Shortest
/-!
JSON values, read from and written to text. A number keeps its literal, so that a whole number can
be told from one with a fraction or an exponent, and no digit is lost.
-/
namespace BlockWorld.Data

/-- A JSON value. The fields of an object stand in the order of the text, repeated names included. -/
inductive Json where
  | null
  | bool (b : Bool)
  | number (literal : String)
  | string (s : String)
  | array (items : List Json)
  | object (fields : List (String × Json))
  deriving Inhabited, Repr

namespace Json

/-! ## Reading -/

/-- The white space of JSON. -/
def isSpace (c : Char) : Bool := c == ' ' || c == '\t' || c == '\n' || c == '\r'

/-- Skips white space. -/
def skipSpace : List Char → List Char
  | [] => []
  | c :: rest => if isSpace c then skipSpace rest else c :: rest

/-- The value of a hexadecimal digit. -/
def hexValue? (c : Char) : Option Nat :=
  if '0' ≤ c ∧ c ≤ '9' then some (c.toNat - '0'.toNat)
  else if 'a' ≤ c ∧ c ≤ 'f' then some (c.toNat - 'a'.toNat + 10)
  else if 'A' ≤ c ∧ c ≤ 'F' then some (c.toNat - 'A'.toNat + 10)
  else none

/-- Four hexadecimal digits and the rest. -/
def fourDigits? : List Char → Option (Nat × List Char)
  | a :: b :: c :: d :: rest => do
    let a ← hexValue? a
    let b ← hexValue? b
    let c ← hexValue? c
    let d ← hexValue? d
    some (a * 4096 + b * 256 + c * 16 + d, rest)
  | _ => none

/-- Whether a number is the first half of a surrogate pair. -/
def isHighSurrogate (n : Nat) : Bool := 0xD800 ≤ n && n < 0xDC00

/-- Whether a number is the second half of a surrogate pair. -/
def isLowSurrogate (n : Nat) : Bool := 0xDC00 ≤ n && n < 0xE000

/-- What stands for half a surrogate pair that has lost its other half. -/
def replacement : Char := Char.ofNat 0xFFFD

/-- The character after `\u`. A surrogate pair is one character. -/
def unicodeEscape? (cs : List Char) : Option (Char × List Char) := do
  let (n, rest) ← fourDigits? cs
  if isHighSurrogate n then
    match rest with
    | '\\' :: 'u' :: more =>
      match fourDigits? more with
      | some (m, after) =>
        if isLowSurrogate m then
          some (Char.ofNat (0x10000 + (n - 0xD800) * 0x400 + (m - 0xDC00)), after)
        else some (replacement, rest)
      | none => some (replacement, rest)
    | _ => some (replacement, rest)
  else if isLowSurrogate n then some (replacement, rest)
  else some (Char.ofNat n, rest)

/-- The character behind a one-letter escape. -/
def shortEscape? (c : Char) : Option Char :=
  match c with
  | '"' => some '"'
  | '\\' => some '\\'
  | '/' => some '/'
  | 'b' => some (Char.ofNat 8)
  | 'f' => some (Char.ofNat 12)
  | 'n' => some '\n'
  | 'r' => some '\r'
  | 't' => some '\t'
  | _ => none

/-- Reads the rest of a string after its opening quote. Each step takes at least one character, so
the number of characters bounds the number of steps. -/
def stringRest : (fuel : Nat) → (done : List Char) → List Char → Option (String × List Char)
  | 0, _, _ => none
  | _ + 1, _, [] => none
  | fuel + 1, done, c :: rest =>
    if c = '"' then some (String.ofList done.reverse, rest)
    else if c = '\\' then
      match rest with
      | 'u' :: more =>
        match unicodeEscape? more with
        | some (ch, after) => stringRest fuel (ch :: done) after
        | none => none
      | e :: after =>
        match shortEscape? e with
        | some ch => stringRest fuel (ch :: done) after
        | none => none
      | [] => none
    else if c.toNat < 0x20 then none
    else stringRest fuel (c :: done) rest

/-- Splits off a leading run of digits. -/
def spanDigits (cs : List Char) : List Char × List Char :=
  cs.span fun c => '0' ≤ c && c ≤ '9'

/-- The whole part of a number: a lone zero, or digits that do not start with one. -/
def wholePart? (cs : List Char) : Option (List Char × List Char) :=
  match cs with
  | '0' :: rest => some (['0'], rest)
  | _ =>
    match spanDigits cs with
    | ([], _) => none
    | found => some found

/-- An optional fraction. -/
def fractionPart? (cs : List Char) : Option (List Char × List Char) :=
  match cs with
  | '.' :: rest =>
    match spanDigits rest with
    | ([], _) => none
    | (digits, after) => some ('.' :: digits, after)
  | _ => some ([], cs)

/-- An optional exponent. -/
def exponentPart? (cs : List Char) : Option (List Char × List Char) :=
  match cs with
  | c :: rest =>
    if c = 'e' ∨ c = 'E' then
      let (sign, rest) :=
        match rest with
        | '+' :: more => (['+'], more)
        | '-' :: more => (['-'], more)
        | _ => ([], rest)
      match spanDigits rest with
      | ([], _) => none
      | (digits, after) => some (c :: (sign ++ digits), after)
    else some ([], cs)
  | [] => some ([], [])

/-- Reads the literal of a number. -/
def numberLiteral? (cs : List Char) : Option (String × List Char) := do
  let (sign, rest) := match cs with
    | '-' :: more => (['-'], more)
    | _ => ([], cs)
  let (whole, rest) ← wholePart? rest
  let (fraction, rest) ← fractionPart? rest
  let (exponent, rest) ← exponentPart? rest
  some (String.ofList (sign ++ whole ++ fraction ++ exponent), rest)

/-- Takes a word off the front of a text. -/
def word? : List Char → List Char → Option (List Char)
  | [], cs => some cs
  | w :: ws, c :: cs => if w = c then word? ws cs else none
  | _ :: _, [] => none

/-- Values are nested at most this deep. -/
def maxDepth : Nat := 10000

mutual

/-- Reads a value, nested in at most `depth` more levels. -/
def value : (fuel depth : Nat) → List Char → Option (Json × List Char)
  | 0, _, _ => none
  | fuel + 1, depth, cs =>
    match skipSpace cs with
    | '"' :: rest => (stringRest (rest.length + 1) [] rest).map fun (s, rest) => (.string s, rest)
    | 't' :: rest => (word? ['r', 'u', 'e'] rest).map fun rest => (.bool true, rest)
    | 'f' :: rest => (word? ['a', 'l', 's', 'e'] rest).map fun rest => (.bool false, rest)
    | 'n' :: rest => (word? ['u', 'l', 'l'] rest).map fun rest => (.null, rest)
    | '[' :: rest =>
      if depth = 0 then none
      else
        match skipSpace rest with
        | ']' :: after => some (.array [], after)
        | rest => items fuel (depth - 1) [] rest
    | '\x7b' :: rest =>
      if depth = 0 then none
      else
        match skipSpace rest with
        | '\x7d' :: after => some (.object [], after)
        | rest => members fuel (depth - 1) [] rest
    | cs => (numberLiteral? cs).map fun (n, rest) => (.number n, rest)

/-- Reads the items of an array from the first one on. -/
def items : (fuel depth : Nat) → (done : List Json) → List Char → Option (Json × List Char)
  | 0, _, _, _ => none
  | fuel + 1, depth, done, cs =>
    match value fuel depth cs with
    | none => none
    | some (v, rest) =>
      match skipSpace rest with
      | ',' :: more => items fuel depth (v :: done) more
      | ']' :: after => some (.array (v :: done).reverse, after)
      | _ => none

/-- Reads the members of an object from the first one on. -/
def members : (fuel depth : Nat) → (done : List (String × Json)) → List Char →
    Option (Json × List Char)
  | 0, _, _, _ => none
  | fuel + 1, depth, done, cs =>
    match skipSpace cs with
    | '"' :: rest =>
      match stringRest (rest.length + 1) [] rest with
      | none => none
      | some (key, rest) =>
        match skipSpace rest with
        | ':' :: rest =>
          match value fuel depth rest with
          | none => none
          | some (v, rest) =>
            match skipSpace rest with
            | ',' :: more => members fuel depth ((key, v) :: done) more
            | '\x7d' :: after => some (.object ((key, v) :: done).reverse, after)
            | _ => none
        | _ => none
    | _ => none

end

/-- Reads the first value of a text; what follows it is not looked at. -/
def first? (s : String) : Option Json :=
  let cs := s.toList
  (value (cs.length + 1) maxDepth cs).map (·.1)

/-! ## Writing -/

/-- How one character is written inside a string. -/
def escape (c : Char) : List Char :=
  if c = '"' then ['\\', '"']
  else if c = '\\' then ['\\', '\\']
  else if c = '\n' then ['\\', 'n']
  else if c.toNat < 0x20 then '\\' :: 'u' :: Text.hexDigits 4 c.toNat
  else [c]

/-- A string in quotes. -/
def quoted (s : String) : String :=
  String.ofList ('"' :: (s.toList.flatMap escape ++ ['"']))

mutual

/-- The text of a value. -/
def text : Json → String
  | .null => "null"
  | .bool b => if b then "true" else "false"
  | .number literal => literal
  | .string s => quoted s
  | .array items => "[" ++ itemsText items ++ "]"
  | .object fields => "\x7b" ++ fieldsText fields ++ "\x7d"

/-- The texts of items, divided by commas. -/
def itemsText : List Json → String
  | [] => ""
  | [v] => v.text
  | v :: rest => v.text ++ "," ++ itemsText rest

/-- The texts of fields, divided by commas. -/
def fieldsText : List (String × Json) → String
  | [] => ""
  | [(k, v)] => quoted k ++ ":" ++ v.text
  | (k, v) :: rest => quoted k ++ ":" ++ v.text ++ "," ++ fieldsText rest

end

/-! ## Building -/

/-- A whole number. -/
def int (n : Int) : Json := .number (toString n)

/-- A natural number. -/
def nat (n : Nat) : Json := .number (toString n)

/-- A double. -/
def double (x : Float) : Json := .number (Number.FloatStyle.json.double x)

/-- A single. -/
def single (x : Float32) : Json := .number (Number.FloatStyle.json.single x)

mutual

/-- Whether all numbers of a value are finite. Only such a value can be written. -/
def isFinite : Json → Bool
  | .number literal => (literal.toList.getLast?.map Char.isDigit).getD false
  | .array items => areFinite items
  | .object fields => fieldsAreFinite fields
  | _ => true

/-- Whether all numbers of some values are finite. -/
def areFinite : List Json → Bool
  | [] => true
  | v :: rest => v.isFinite && areFinite rest

/-- Whether all numbers of some fields are finite. -/
def fieldsAreFinite : List (String × Json) → Bool
  | [] => true
  | (_, v) :: rest => v.isFinite && fieldsAreFinite rest

end

/-- The field of an object with a given name. -/
def field? (j : Json) (name : String) : Option Json :=
  match j with
  | .object fields => fields.lookup name
  | _ => none

end Json

end BlockWorld.Data
