import BlockWorld.Data.Yaml.Character
/-!
The bytes behind a YAML text. They are UTF-8, or UTF-16 if they start with its mark of the byte
order, and they are read in pieces: a fault is only met by who reads up to the piece it is in.
-/
namespace BlockWorld.Data.Yaml

/-- A text as far as it can be read. -/
structure Source where
  /-- The characters in front of the first faulty piece. -/
  chars : List Char
  /-- Whether a faulty piece follows. -/
  broken : Bool
  /-- The number of characters of the first piece. -/
  first : Nat

/-- How bytes stand for characters. -/
inductive Encoding where
  | utf8
  | utf16 (bigEndian : Bool)

/-- What stands at a place among bytes. -/
inductive Decoded where
  /-- A character and the number of its bytes. -/
  | char (c : Char) (width : Nat)
  /-- The start of a character whose other bytes are missing. -/
  | cut
  | fault

/-- The byte at a place of a list, or zero behind its end. -/
def byteAt (bytes : List UInt8) (i : Nat) : Nat := (bytes.getD i 0).toNat

/-- A character of a text, if such a text may hold it. -/
def Decoded.ofCode (n width : Nat) : Decoded :=
  if (0xD800 ≤ n && n < 0xE000) || 0x10FFFF < n then .fault
  else if isAllowed (Char.ofNat n) then .char (Char.ofNat n) width
  else .fault

/-- The first character of UTF-8 bytes. Every character has the shortest form. -/
def decodeUtf8 (bytes : List UInt8) : Decoded :=
  let lead := byteAt bytes 0
  let width :=
    if lead < 0x80 then 1
    else if lead / 32 = 6 then 2
    else if lead / 16 = 14 then 3
    else if lead / 8 = 30 then 4
    else 0
  if width = 0 then .fault
  else if (bytes.take width).length < width then .cut
  else
    let tail := (bytes.take width).drop 1
    if tail.any fun b => b.toNat / 64 != 2 then .fault
    else
      let head := match width with
        | 1 => lead
        | 2 => lead % 32
        | 3 => lead % 16
        | _ => lead % 8
      let n := tail.foldl (fun n b => n * 64 + b.toNat % 64) head
      let least := match width with
        | 1 => 0
        | 2 => 0x80
        | 3 => 0x800
        | _ => 0x10000
      if n < least then .fault else .ofCode n width

/-- The first character of UTF-16 bytes. -/
def decodeUtf16 (bigEndian : Bool) (bytes : List UInt8) : Decoded :=
  let unit (i : Nat) : Nat :=
    if bigEndian then byteAt bytes i * 256 + byteAt bytes (i + 1)
    else byteAt bytes (i + 1) * 256 + byteAt bytes i
  match bytes with
  | _ :: _ :: more =>
    let n := unit 0
    if n / 1024 = 55 then .fault
    else if n / 1024 = 54 then
      match more with
      | _ :: _ :: _ =>
        if unit 2 / 1024 = 55 then .ofCode (0x10000 + n % 1024 * 1024 + unit 2 % 1024) 4 else .fault
      | _ => .cut
    else .ofCode n 2
  | _ => .cut

/-- The first character of bytes. -/
def Encoding.decode : Encoding → List UInt8 → Decoded
  | .utf8, bytes => decodeUtf8 bytes
  | .utf16 bigEndian, bytes => decodeUtf16 bigEndian bytes

/-- Reads a piece of `size` bytes: its characters in reverse and the bytes that were not used, among
them the start of a character that the piece cuts. -/
def readPiece (e : Encoding) : (fuel size : Nat) → (done : List Char) → List UInt8 →
    Option (List Char × List UInt8)
  | 0, _, done, bytes => some (done, bytes)
  | fuel + 1, size, done, bytes =>
    if size = 0 || bytes.isEmpty then some (done, bytes)
    else
      match e.decode (bytes.take (min size 4)) with
      | .char c width => readPiece e fuel (size - width) (c :: done) (bytes.drop width)
      | .cut => some (done, bytes)
      | .fault => none

/-- The number of bytes of a piece. -/
def pieceSize : Nat := 512

/-- Reads all pieces; the characters are in reverse. -/
def readPieces (e : Encoding) : (fuel : Nat) → (done : List Char) → List UInt8 → List Char × Bool
  | 0, done, bytes => (done, !bytes.isEmpty)
  | fuel + 1, done, bytes =>
    if bytes.isEmpty then (done, false)
    else
      match readPiece e pieceSize pieceSize done bytes with
      | none => (done, true)
      | some (done', rest) =>
        if rest.length = bytes.length then (done, true) else readPieces e fuel done' rest

/-- The encoding of bytes, and the bytes behind the mark of the byte order. -/
def detect (bytes : List UInt8) : Encoding × Nat :=
  match bytes with
  | 0xFF :: 0xFE :: _ => (.utf16 false, 2)
  | 0xFE :: 0xFF :: _ => (.utf16 true, 2)
  | 0xEF :: 0xBB :: 0xBF :: _ => (.utf8, 3)
  | _ => (.utf8, 0)

/-- The text behind some bytes. -/
def Source.ofBytes (data : ByteArray) : Source :=
  let bytes := data.toList
  let (e, mark) := detect bytes
  let rest := bytes.drop mark
  match readPiece e pieceSize (pieceSize - mark) [] rest with
  | none => ⟨[], true, 0⟩
  | some (done, rest) =>
    let (all, broken) := readPieces e (rest.length + 1) done rest
    ⟨all.reverse, broken, done.length⟩

end BlockWorld.Data.Yaml
