import BlockWorld.Text.Integer
import BlockWorld.Text.Quoted
/-!
How an argument is written at a place of a message. The letter of the place tells the form, and flags,
a width and a precision vary it. An argument that has no form for a letter is reported instead.
-/
namespace BlockWorld.Log

/-- An argument of a message. -/
inductive Argument where
  | text (s : String)
  | whole (n : Int64)
  deriving DecidableEq, Repr

/-- The name of the kind of an argument. -/
def Argument.kind : Argument → String
  | .text _ => "string"
  | .whole _ => "int"

/-- What varies the form of an argument. -/
structure Style where
  /-- A positive number has a sign; a quoted text is ASCII. -/
  plus : Bool := false
  /-- The room that is left stands behind. -/
  minus : Bool := false
  /-- The other form of a letter. -/
  sharp : Bool := false
  /-- A positive number has a space in front; bytes are divided. -/
  space : Bool := false
  /-- The room that is left is filled with zeros. -/
  zero : Bool := false
  /-- A text is shown in quotes. -/
  quoted : Bool := false
  /-- The least number of characters. -/
  width : Option Nat := none
  /-- The least number of digits, or the greatest number of characters of a text. -/
  precision : Option Nat := none
  deriving DecidableEq, Repr

namespace Style

/-- What fills room of some characters. Zeros never stand behind. -/
def filler (s : Style) (n : Nat) : List Char :=
  List.replicate n (if s.zero && !s.minus then '0' else ' ')

/-- Fills a text up to the width. -/
def pad (s : Style) (cs : List Char) : List Char :=
  let room := s.filler (s.width.getD 0 - cs.length)
  if s.minus then cs ++ room else room ++ cs

/-- Fills a text up to the width with spaces. -/
def padBlank (s : Style) (cs : List Char) : List Char := { s with zero := false }.pad cs

/-- Cuts a text at the precision. -/
def truncate (s : Style) (cs : List Char) : List Char :=
  match s.precision with
  | some n => cs.take n
  | none => cs

/-! ## Whole numbers -/

/-- The digits of a number, capitals if `upper` is set. -/
def digits (base : Nat) (upper : Bool) (n : Nat) : List Char :=
  let ds := Nat.toDigits base n
  if upper then ds.map Char.toUpper else ds

/-- The least number of digits: the precision, or with zeros all that the sign leaves of the width. -/
def leastDigits (s : Style) (negative : Bool) : Nat :=
  match s.precision with
  | some n => n
  | none =>
    if s.zero && !s.minus then s.width.getD 0 - (if negative || s.plus || s.space then 1 else 0) else 0

/-- The mark of the base in front of digits. -/
def withBase (base : Nat) (upper : Bool) (ds : List Char) : List Char :=
  match base with
  | 2 => '0' :: 'b' :: ds
  | 8 => if ds.head? = some '0' then ds else '0' :: ds
  | 16 => '0' :: (if upper then 'X' else 'x') :: ds
  | _ => ds

/-- A whole number in a base. `marked` asks for the long mark of base eight. -/
def number (s : Style) (base : Nat) (upper marked : Bool) (n : Int) : List Char :=
  if s.precision = some 0 ∧ n = 0 then s.padBlank []
  else
    let ds := digits base upper n.natAbs
    let ds := List.replicate (s.leastDigits (n < 0) - ds.length) '0' ++ ds
    let ds := if s.sharp then withBase base upper ds else ds
    let ds := if marked then '0' :: 'o' :: ds else ds
    s.padBlank (if n < 0 then '-' :: ds else if s.plus then '+' :: ds else if s.space then ' ' :: ds else ds)

/-- The character with a number; one without a character is shown by the replacement character. -/
def charOf (n : Int) : Char :=
  if n < 0 || 0x10FFFF < n || (0xD800 ≤ n && n < 0xE000) then Char.ofNat 0xFFFD else Char.ofNat n.toNat

/-- A number as a code point; the other form also shows a printable character. -/
def codePoint (s : Style) (n : Int64) : List Char :=
  let u := n.toUInt64.toNat
  let ds := digits 16 true u
  let least := max (s.precision.getD 0) 4
  let ds := 'U' :: '+' :: (List.replicate (least - ds.length) '0' ++ ds)
  let isChar := u ≤ 0x10FFFF && !(0xD800 ≤ u && u < 0xE000)
  s.padBlank (if s.sharp && isChar && Text.isPrintable (Char.ofNat u) then
    ds ++ [' ', '\'', Char.ofNat u, '\''] else ds)

/-! ## Texts -/

/-- Whether a text can stand between grave accents as it is. -/
def fitsGraves (cs : List Char) : Bool :=
  cs.all fun c => (' ' ≤ c || c == '\t') && c.toNat != 0x60 && c.toNat != 0x7F && c.toNat != 0xFEFF

/-- A text in quotes; the other form uses grave accents if they can hold it. -/
def inQuotes (s : Style) (cs : List Char) : List Char :=
  let cs := s.truncate cs
  let grave := Char.ofNat 0x60
  s.pad (if s.sharp && fitsGraves cs then grave :: (cs ++ [grave])
    else '"' :: (cs.flatMap (Text.quoteCharIn '"' s.plus) ++ ['"']))

/-- The digits of bytes, `start` in front of all of them or of each. -/
def bytesText (s : Style) (upper : Bool) (bytes : List UInt8) : List Char :=
  let bytes := match s.precision with
    | some n => bytes.take n
    | none => bytes
  let start := if s.sharp then ['0', if upper then 'X' else 'x'] else []
  let pairs := bytes.map fun b =>
    let ds := Text.hexDigits 2 b.toNat
    if upper then ds.map Char.toUpper else ds
  s.pad (match pairs with
    | [] => []
    | first :: rest =>
      start ++ first ++ rest.flatMap fun ds => if s.space then ' ' :: (start ++ ds) else ds)

end Style

namespace Argument

/-- The argument without regard to a letter. -/
def shown (s : Style) : Argument → List Char
  | .text t => if s.quoted then s.inQuotes t.toList else s.pad (s.truncate t.toList)
  | .whole n => s.number 10 false false n.toInt

/-- The argument with its kind, as reports name it. -/
def described (s : Style) (a : Argument) : List Char := a.kind.toList ++ '=' :: a.shown s

/-- The form of an argument for a letter. -/
def form? (s : Style) (letter : Char) (a : Argument) : Option (List Char) :=
  match letter, a with
  | 'T', a => some (s.pad (s.truncate a.kind.toList))
  | 'v', a => some (a.shown s)
  | 'd', .whole n => some (s.number 10 false false n.toInt)
  | 'b', .whole n => some (s.number 2 false false n.toInt)
  | 'o', .whole n => some (s.number 8 false false n.toInt)
  | 'O', .whole n => some (s.number 8 false true n.toInt)
  | 'x', .whole n => some (s.number 16 false false n.toInt)
  | 'X', .whole n => some (s.number 16 true false n.toInt)
  | 'c', .whole n => some (s.pad [Style.charOf n.toInt])
  | 'q', .whole n =>
    some (s.pad ('\'' :: (Text.quoteCharIn '\'' s.plus (Style.charOf n.toInt) ++ ['\''])))
  | 'U', .whole n => some (s.codePoint n)
  | 's', .text t => some (s.pad (s.truncate t.toList))
  | 'x', .text t => some (s.bytesText false t.toUTF8.toList)
  | 'X', .text t => some (s.bytesText true t.toUTF8.toList)
  | 'q', .text t => some (s.inQuotes t.toList)
  | _, _ => none

/-- The argument at a place with a given letter. -/
def placed (s : Style) (letter : Char) (a : Argument) : List Char :=
  match a.form? s letter with
  | some cs => cs
  | none => '%' :: '!' :: letter :: '(' :: (a.described s ++ [')'])

end Argument

end BlockWorld.Log
