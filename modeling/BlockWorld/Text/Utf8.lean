/-!
Reading bytes as text where no byte may be refused.
-/
namespace BlockWorld.Text

/-- The character that stands for bytes without a meaning. -/
def replacement : Char := Char.ofNat 0xFFFD

/-- The characters of bytes from a place on. A byte that starts no character counts as one
replacement character. -/
def decodeFrom (data : ByteArray) (i : Nat) : List Char :=
  if i < data.size then
    match data.utf8DecodeChar? i with
    | some c => c :: decodeFrom data (i + max c.utf8Size 1)
    | none => replacement :: decodeFrom data (i + 1)
  else []
termination_by data.size - i

/-- Bytes as a text. -/
def ofBytes (data : ByteArray) : String := String.ofList (decodeFrom data 0)

end BlockWorld.Text
