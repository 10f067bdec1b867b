/-!
Bytes written in base 64: four characters for three bytes, with equals signs for what is missing at
the end. Line ends do not count.
-/
namespace BlockWorld.Text

/-- The value of a character. -/
def base64Value? (c : Char) : Option Nat :=
  if c.isUpper then some (c.toNat - 'A'.toNat)
  else if c.isLower then some (c.toNat - 'a'.toNat + 26)
  else if c.isDigit then some (c.toNat - '0'.toNat + 52)
  else if c = '+' then some 62
  else if c = '/' then some 63
  else none

/-- The bytes of characters without line ends. Only the last four may have equals signs. -/
def base64Groups? : List Char → Option (List UInt8)
  | [] => some []
  | [a, b, '=', '='] => do
    let n := (← base64Value? a) * 64 + (← base64Value? b)
    some [(n / 16).toUInt8]
  | [a, b, c, '='] => do
    let n := ((← base64Value? a) * 64 + (← base64Value? b)) * 64 + (← base64Value? c)
    some [(n / 1024).toUInt8, (n / 4).toUInt8]
  | a :: b :: c :: d :: rest => do
    let high := (← base64Value? a) * 64 + (← base64Value? b)
    let n := (high * 64 + (← base64Value? c)) * 64 + (← base64Value? d)
    some ((n / 65536).toUInt8 :: (n / 256).toUInt8 :: n.toUInt8 :: (← base64Groups? rest))
  | _ => none

/-- The bytes behind a text. -/
def base64? (cs : List Char) : Option ByteArray := do
  let bytes ← base64Groups? (cs.filter fun c => c != '\n' && c != '\r')
  some ⟨bytes.toArray⟩

end BlockWorld.Text
