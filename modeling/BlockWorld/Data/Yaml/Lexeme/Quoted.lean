import BlockWorld.Data.Json
import BlockWorld.Data.Yaml.Lexeme.Plain
/-!
Quoted scalars. Between single quotes a quote is written twice; between double quotes a backslash
starts an escape, and one in front of a line end keeps the lines together. Line ends inside the
quotes are folded.
-/
namespace BlockWorld.Data.Yaml

/-- What stands in single quotes up to a blank, a line end or the closing quote, and the number of
characters it takes. -/
def singleQuotedWord : List Char → List Char × Nat
  | '\'' :: '\'' :: rest =>
    let (word, n) := singleQuotedWord rest
    ('\'' :: word, n + 2)
  | '\'' :: _ => ([], 0)
  | c :: rest =>
    if isBlankChar c || isBreak c then ([], 0)
    else
      let (word, n) := singleQuotedWord rest
      (c :: word, n + 1)
  | [] => ([], 0)

/-- The character behind a one-letter escape. -/
def escapeValue? (c : Char) : Option Nat :=
  match c with
  | '0' => some 0
  | 'a' => some 7
  | 'b' => some 8
  | 't' => some 9
  | '\t' => some 9
  | 'n' => some 10
  | 'v' => some 11
  | 'f' => some 12
  | 'r' => some 13
  | 'e' => some 27
  | ' ' => some 32
  | '"' => some 34
  | '\'' => some 39
  | '\\' => some 92
  | 'N' => some 0x85
  | '_' => some 0xA0
  | 'L' => some 0x2028
  | 'P' => some 0x2029
  | _ => none

/-- The number of digits of a numeric escape. -/
def escapeWidth? (c : Char) : Option Nat :=
  match c with
  | 'x' => some 2
  | 'u' => some 4
  | 'U' => some 8
  | _ => none

/-- The number behind some hexadecimal digits. -/
def hexNumber? (cs : List Char) : Option Nat :=
  cs.foldl (fun acc c => do some ((← acc) * 16 + (← Json.hexValue? c))) (some 0)

/-- The character of a numeric escape, which has to be one of Unicode. -/
def numericEscape? (width : Nat) (cs : List Char) : Option Char := do
  let digits := cs.take width
  if digits.length < width then none
  let n ← hexNumber? digits
  if (0xD800 ≤ n && n < 0xE000) || 0x10FFFF < n then none else some (Char.ofNat n)

/-- The escape behind a backslash: its character and the number of its own characters. -/
def escape? : List Char → Option (Char × Nat)
  | [] => none
  | e :: rest =>
    match escapeWidth? e with
    | some width => (numericEscape? width rest).map fun c => (c, width + 1)
    | none => (escapeValue? e).map fun n => (Char.ofNat n, 1)

/-- What stands in double quotes up to a blank, a line end, the closing quote or a backslash in front
of a line end, and the number of characters it takes. -/
def doubleQuotedWord : (fuel : Nat) → List Char → Except Malformed (List Char × Nat)
  | 0, _ => .error ⟨⟩
  | _, [] => .ok ([], 0)
  | fuel + 1, c :: rest =>
    if isBlankChar c || isBreak c || c = '"' then .ok ([], 0)
    else if c = '\\' then
      if rest.head?.any isBreak then .ok ([], 0)
      else
        match escape? rest with
        | none => .error ⟨⟩
        | some (ch, width) => do
          let (word, n) ← doubleQuotedWord fuel (rest.drop width)
          .ok (ch :: word, n + width + 1)
    else do
      let (word, n) ← doubleQuotedWord fuel rest
      .ok (c :: word, n + 1)

/-- The word at the start of a part of a quoted scalar. -/
def quotedWord (fuel : Nat) (single : Bool) (cs : List Char) : Except Malformed (List Char × Nat) :=
  if single then .ok (singleQuotedWord cs) else doubleQuotedWord fuel cs

/-- Reads the words of a quoted scalar up to its closing quote; `done` is the text so far in
reverse. -/
def quotedWords (single : Bool) : (fuel : Nat) → (done : List Char) → Cursor → Except Malformed Lexeme
  | 0, _, _ => .error ⟨⟩
  | fuel + 1, done, c =>
    if c.isAtMarker || c.rest.isEmpty then .error ⟨⟩
    else
      match quotedWord fuel single c.rest with
      | .error e => .error e
      | .ok (word, n) =>
        let done := word.reverse ++ done
        let c := c.skip n
        if c.isAt (if single then '\'' else '"') then .ok ⟨done.reverse, false, c.skip 1⟩
        else
          let joined := !single && c.isAt '\\'
          let c := if joined then (c.skip 1).skipLine else c
          match c.gap? 0 fuel [] [] with
          | none => .error ⟨⟩
          | some g =>
            quotedWords single fuel ((if joined then g.breaks else g.joint).reverse ++ done) g.after

/-- Reads a quoted scalar, the cursor being at its opening quote. -/
def quotedScalar (fuel : Nat) (single : Bool) (c : Cursor) : Except Malformed Lexeme :=
  quotedWords single fuel [] (c.skip 1)

end BlockWorld.Data.Yaml
