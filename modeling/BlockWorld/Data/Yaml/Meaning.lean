import BlockWorld.Data.Json
import BlockWorld.Data.Timestamp
import BlockWorld.Data.Yaml.Document
import BlockWorld.Text.Base64
import BlockWorld.Text.Utf8
/-!
What YAML scalars stand for. A plain scalar is resolved to a null, a truth value, a number or a time
if it is written like one, and to text otherwise. A tag of the format itself asks for one of these.
-/
namespace BlockWorld.Data.Yaml

/-- What a scalar stands for. -/
inductive Meaning where
  | null
  | bool (b : Bool)
  | int (n : Int)
  | float (x : Float)
  | time (t : Timestamp)
  | text (s : String)
  deriving Repr

/-- A node is not what its place wants. -/
structure Mismatch where
  deriving DecidableEq, Repr

/-- The outcome of reading a node. -/
abbrev Result (α : Type) := Except Mismatch α

/-! ## Numbers -/

/-- The value of digits in a base up to sixteen; at least one is needed. -/
def digitsIn? (base : Nat) (cs : List Char) : Option Nat :=
  if cs.isEmpty then none
  else cs.foldl (fun acc c => do
    let n ← acc
    let d ← Json.hexValue? c
    if d < base then some (n * base + d) else none) (some 0)

/-- A natural number; a leading `0x`, `0b`, `0o` or `0` tells its base. -/
def natural? (cs : List Char) : Option Nat :=
  match cs with
  | '0' :: c :: rest =>
    if c = 'x' ∨ c = 'X' then digitsIn? 16 rest
    else if c = 'b' ∨ c = 'B' then digitsIn? 2 rest
    else if c = 'o' ∨ c = 'O' then digitsIn? 8 rest
    else digitsIn? 8 (c :: rest)
  | _ => digitsIn? 10 cs

/-- A whole number by a reader of its digits. It has to fit a signed 64-bit word, or an unsigned one if
it has no sign. -/
def signedBy? (digits : List Char → Option Nat) (cs : List Char) : Option Int :=
  match cs with
  | '-' :: rest => do
    let n ← digits rest
    if n ≤ Text.signedSize then some (-(n : Int)) else none
  | '+' :: rest => do
    let n ← digits rest
    if n < Text.signedSize then some (n : Int) else none
  | _ => do
    let n ← digits cs
    if n < UInt64.size then some (n : Int) else none

/-- A whole number whose base is told by its start. -/
def integer? (cs : List Char) : Option Int := signedBy? natural? cs

/-- A whole number that has its sign behind the letter of its base. -/
def lateSigned? (cs : List Char) : Option Int :=
  match cs with
  | '0' :: 'b' :: rest => signedBy? (digitsIn? 2) rest
  | '0' :: 'o' :: rest => signedBy? (digitsIn? 8) rest
  | _ => none

/-- A number with a point or an exponent. The digits may be missing after the point, or before it
but not both. One beyond the range of doubles is none. -/
def float? (cs : List Char) : Option Float := do
  let d ← Number.readDecimal cs
  let x := d.toFloat
  if x.isInf then none else some x

/-- Whether underscores stand only between digits. `digit` tells whether a digit came before. -/
def dividesDigits : (digit : Bool) → List Char → Bool
  | _, [] => true
  | digit, '_' :: rest => digit && rest.head?.any Char.isDigit && dividesDigits false rest
  | _, c :: rest => dividesDigits c.isDigit rest

/-- The characters of a number without the underscores that divide its digits. -/
def withoutDividers (cs : List Char) : List Char := cs.filter (· != '_')

/-- The words that stand for numbers. -/
def numberWord? (s : String) : Option Float :=
  if s ∈ [".nan", ".NaN", ".NAN"] then some (0 / 0)
  else if s ∈ [".inf", ".Inf", ".INF", "+.inf", "+.Inf", "+.INF"] then some (1 / 0)
  else if s ∈ ["-.inf", "-.Inf", "-.INF"] then some (-1 / 0)
  else none

/-- What a scalar stands for that starts with a digit or a sign. -/
def numeric (s : String) : Meaning :=
  let cs := withoutDividers s.toList
  match integer? cs with
  | some n => .int n
  | none =>
    match float? cs with
    | some x => .float x
    | none =>
      match lateSigned? cs with
      | some n => .int n
      | none => .text s

/-- What a plain scalar stands for. Times only count where they are not ruled out. -/
def resolve (times : Bool) (s : String) : Meaning :=
  if s ∈ ["", "~", "null", "Null", "NULL"] then .null
  else if s ∈ ["true", "True", "TRUE"] then .bool true
  else if s ∈ ["false", "False", "FALSE"] then .bool false
  else
    match numberWord? s with
    | some x => .float x
    | none =>
      match s.toList with
      | c :: cs =>
        if c.isDigit || c == '+' || c == '-' then
          match if times then Timestamp.parseLenient? s else none with
          | some t => .time t
          | none => numeric s
        else if c = '.' ∧ dividesDigits false (c :: cs) then
          match float? (withoutDividers (c :: cs)) with
          | some x => .float x
          | none => .text s
        else .text s
      | [] => .null

/-! ## Tags -/

/-- A scalar: the text that counts and what it stands for. -/
structure Scalar where
  text : String
  meaning : Meaning

/-- What a scalar with a tag stands for. A tag that is not known leaves it a text. -/
def tagged (tag text : String) : Result Scalar :=
  match tag with
  | "!!null" =>
    match resolve false text with
    | .null => .ok ⟨text, .null⟩
    | _ => .error ⟨⟩
  | "!!bool" =>
    match resolve false text with
    | .bool b => .ok ⟨text, .bool b⟩
    | _ => .error ⟨⟩
  | "!!int" =>
    match resolve false text with
    | .int n => .ok ⟨text, .int n⟩
    | _ => .error ⟨⟩
  | "!!float" =>
    match resolve false text with
    | .float x => .ok ⟨text, .float x⟩
    | .int n => if n < Text.signedSize then .ok ⟨text, .float (Float.ofInt n)⟩ else .error ⟨⟩
    | _ => .error ⟨⟩
  | "!!timestamp" =>
    match resolve true text with
    | .time t => .ok ⟨text, .time t⟩
    | _ => .error ⟨⟩
  | "!!binary" =>
    match Text.base64? text.toList with
    | some data => .ok ⟨Text.ofBytes data, .text (Text.ofBytes data)⟩
    | none => .error ⟨⟩
  | _ => .ok ⟨text, .text text⟩

/-- What a scalar stands for; one in quotes without a tag is text. -/
def scalarValue (tag : Option String) (text : String) (plain : Bool) : Result Scalar :=
  match tag with
  | some tag => tagged tag text
  | none => .ok ⟨text, if plain then resolve true text else .text text⟩

end BlockWorld.Data.Yaml
