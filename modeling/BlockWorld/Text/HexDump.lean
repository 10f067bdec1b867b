import BlockWorld.Text.Quoted
/-!
A hexadecimal listing of the first bytes of some data, sixteen bytes to the line: the offset, the
bytes, and the printable ASCII characters among them.
-/
namespace BlockWorld.Text

/-- At most this many bytes are listed. -/
def hexDumpLimit : Nat := 256

/-- The byte column of one line: every byte takes three places and the eighth one a fourth. A
place without a byte is blank. -/
def hexDumpBytes (row : List UInt8) : String :=
  String.join <| (List.range 16).map fun i =>
    let gap := if i = 7 then " " else ""
    match row[i]? with
    | some b => hex 2 b.toNat ++ " " ++ gap
    | none => "   " ++ gap

/-- The character column of one line: what is not printable ASCII is a dot. -/
def hexDumpChars (row : List UInt8) : String :=
  String.ofList <| row.map fun b =>
    if 32 ≤ b.toNat ∧ b.toNat ≤ 126 then Char.ofNat b.toNat else '.'

/-- One line of the listing. -/
def hexDumpLine (offset : Nat) (row : List UInt8) : String :=
  hex 8 offset ++ "  " ++ hexDumpBytes row ++ " |" ++ hexDumpChars row ++ "|\n"

/-- The lines of a listing that starts at `offset`, one for every sixteen bytes begun. -/
def hexDumpLines : (rows offset : Nat) → List UInt8 → String
  | 0, _, _ => ""
  | rows + 1, offset, bytes =>
    hexDumpLine offset (bytes.take 16) ++ hexDumpLines rows (offset + 16) (bytes.drop 16)

/-- The listing of some data, cut after `hexDumpLimit` bytes (`HexDump`). -/
def hexDump (data : ByteArray) : String :=
  let bytes := (data.extract 0 hexDumpLimit).toList
  if bytes.isEmpty then "No data" else hexDumpLines ((bytes.length + 15) / 16) 0 bytes

end BlockWorld.Text
