import BlockWorld.Text.Printable
/-!
Texts in double quotes, as error messages show them. Quotes and backslashes are escaped, control
characters have short or numeric escapes, and every printable character stands for itself.
-/
namespace BlockWorld.Text

/-- The lower-case hexadecimal digit of a number below sixteen. -/
def hexDigit (n : Nat) : Char :=
  if n < 10 then Char.ofNat ('0'.toNat + n) else Char.ofNat ('a'.toNat + (n - 10))

/-- The last `width` hexadecimal digits of a number. -/
def hexDigits : (width n : Nat) → List Char
  | 0, _ => []
  | width + 1, n => hexDigits width (n / 16) ++ [hexDigit (n % 16)]

/-- The hexadecimal text of a number, at least `width` digits long. -/
def hex (width n : Nat) : String :=
  String.ofList (hexDigits width n)

/-- How one character is written between the marks `mark`. Only ASCII characters stand for themselves
if `ascii` is set. -/
def quoteCharIn (mark : Char) (ascii : Bool) (c : Char) : List Char :=
  let n := c.toNat
  if c = mark then ['\\', c]
  else if c = '\\' then ['\\', '\\']
  else if isPrintable c && (!ascii || n < 0x80) then [c]
  else if n = 0x07 then ['\\', 'a']
  else if n = 0x08 then ['\\', 'b']
  else if n = 0x0C then ['\\', 'f']
  else if n = 0x0A then ['\\', 'n']
  else if n = 0x0D then ['\\', 'r']
  else if n = 0x09 then ['\\', 't']
  else if n = 0x0B then ['\\', 'v']
  else if n < 0x80 then '\\' :: 'x' :: hexDigits 2 n
  else if n < 0x10000 then '\\' :: 'u' :: hexDigits 4 n
  else '\\' :: 'U' :: hexDigits 8 n

/-- How one character is written between double quotes. -/
def quoteChar (c : Char) : List Char := quoteCharIn '"' false c

/-- A text in double quotes. -/
def quote (s : String) : String :=
  String.ofList ('"' :: (s.toList.flatMap quoteChar ++ ['"']))

/-- Bytes as the inside of a quoted text, at most `fuel` characters of it. A byte that is part of no
character is shown by its number. -/
def quoteBytesFrom (data : ByteArray) : (fuel i : Nat) → List Char
  | 0, _ => []
  | fuel + 1, i =>
    if h : i < data.size then
      match data.utf8DecodeChar? i with
      | some c => quoteChar c ++ quoteBytesFrom data fuel (i + c.utf8Size)
      | none => '\\' :: 'x' :: (hexDigits 2 data[i].toNat ++ quoteBytesFrom data fuel (i + 1))
    else []

/-- Bytes in quotes. -/
def quoteBytes (data : ByteArray) : String :=
  String.ofList ('"' :: (quoteBytesFrom data data.size 0 ++ ['"']))

end BlockWorld.Text
