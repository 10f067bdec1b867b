import BlockWorld.Chunk.Codec
import BlockWorld.Megachunk.Basic
/-!
Megachunks as bytes. A header of ten bytes holds the coordinate: a byte with the signs, then three
magnitudes of three bytes each, high byte first. A record follows for every chunk, in the order of
the places: a byte that tells whether the chunk has been generated, the three components of its
place, and the cells.
-/
namespace BlockWorld.Megachunk

open Grid

/-- The number of bytes of the header. -/
def headerSize : Nat := 10

/-- The number of bytes of a record. -/
def recordSize : Nat := 4 + Chunk.encodedSize

/-- The greatest magnitude that fits three bytes. -/
def maxMagnitude : Int64 := 0xFFFFFF

/-- The coordinate of a megachunk does not fit the header. -/
structure HeaderError where
  coord : Coord
  deriving DecidableEq, Repr

/-- The wording of a header error. -/
def HeaderError.message (e : HeaderError) : String :=
  "megachunk " ++ e.coord.text ++ " does not fit the header: coordinates out of range"

instance : Fault HeaderError := ⟨HeaderError.message, fun _ => [.outOfRange]⟩

/-- The magnitude of a component. That of the least 64-bit integer wraps around to itself. -/
def magnitude (v : Int64) : Int64 := if v < 0 then -v else v

/-- Three bytes of a magnitude, high byte first. -/
def magnitudeBytes (v : Int64) : List UInt8 :=
  [(v >>> 16).toUInt64.toUInt8, (v >>> 8).toUInt64.toUInt8, v.toUInt64.toUInt8]

/-- The header of a coordinate, if its magnitudes are small enough (`encodeMegaHeader`). -/
def encodeHeader (c : Coord) : Except HeaderError (List UInt8) :=
  let fits (v : Int64) : Bool := magnitude v ≤ maxMagnitude
  if fits c.x && fits c.y && fits c.z then
    let signs : UInt8 :=
      (if c.x < 0 then 4 else 0) ||| (if c.y < 0 then 2 else 0) ||| (if c.z < 0 then 1 else 0)
    .ok (signs :: (magnitudeBytes (magnitude c.x) ++ magnitudeBytes (magnitude c.y) ++
      magnitudeBytes (magnitude c.z)))
  else .error ⟨c⟩

/-- A component from its sign and the three bytes of its magnitude. -/
def decodeComponent (negative : Bool) (a b c : UInt8) : Int64 :=
  let v := Int64.ofNat (a.toNat * 65536 + b.toNat * 256 + c.toNat)
  if negative then -v else v

/-- The coordinate in the header of some data (`decodeMegaHeader`). -/
def decodeHeader (data : ByteArray) : Coord :=
  let at_ (i : Nat) : UInt8 := Chunk.byteAt data i
  ⟨decodeComponent (at_ 0 &&& 4 != 0) (at_ 1) (at_ 2) (at_ 3),
   decodeComponent (at_ 0 &&& 2 != 0) (at_ 4) (at_ 5) (at_ 6),
   decodeComponent (at_ 0 &&& 1 != 0) (at_ 7) (at_ 8) (at_ 9)⟩

/-- Appends the record of a chunk. -/
def appendRecord (out : ByteArray) (entry : Local × ChunkData) : ByteArray :=
  let (l, d) := entry
  let out := out.push (if d.generated then 1 else 0)
  let out := ((out.push l.x.val.toUInt8).push l.y.val.toUInt8).push l.z.val.toUInt8
  d.chunk.appendTo out

/-- The bytes of a megachunk (`MegaChunk.Serialize`). -/
def encode (m : Megachunk) (a : Arena) : Except HeaderError ByteArray :=
  match encodeHeader m.coord with
  | .error e => .error e
  | .ok header =>
    let start := header.foldl ByteArray.push
      (ByteArray.emptyWithCapacity (headerSize + m.count * recordSize))
    .ok ((m.chunks a).foldl appendRecord start)

/-! ## Reading -/

/-- A record whose place has been checked: where the chunk goes, whether it has been generated, and
where in the data its cells start. -/
structure Record where
  place : Local
  generated : Bool
  cellsAt : Nat
  deriving DecidableEq, Repr

/-- Why some data are not a megachunk. -/
inductive DecodeError where
  /-- There is no whole header. -/
  | short (size : Nat)
  /-- The bytes after the header are no whole number of records. -/
  | ragged (size : Nat)
  /-- A record names a place that does not exist. -/
  | misplaced (mega : Coord) (x y z : UInt8)
  /-- Two records name the same place. -/
  | repeated (mega : Coord) (place : Local)
  deriving DecidableEq, Repr

/-- The wording of a decoding error. -/
def DecodeError.message (e : DecodeError) : String :=
  let cause := match e with
    | .short size => "megachunk buffer is " ++ toString size ++ " bytes, shorter than header"
    | .ragged size =>
      "megachunk body of " ++ toString size ++ " bytes is not a multiple of " ++
        toString recordSize
    | .misplaced mega x y z =>
      "megachunk " ++ mega.text ++ ": chunk index (" ++ toString x.toNat ++ "," ++
        toString y.toNat ++ "," ++ toString z.toNat ++ ")"
    | .repeated mega place =>
      "megachunk " ++ mega.text ++ ": duplicate chunk " ++ place.toCoord.text
  cause ++ ": corrupt data"

instance : Fault DecodeError := ⟨DecodeError.message, fun _ => [.corrupt]⟩

/-- A place from three bytes, which have to lie below sixteen. -/
def placeOfBytes? (x y z : UInt8) : Option Local :=
  if h : x.toNat < 16 ∧ y.toNat < 16 ∧ z.toNat < 16 then
    some ⟨⟨x.toNat, h.1⟩, ⟨y.toNat, h.2.1⟩, ⟨z.toNat, h.2.2⟩⟩
  else none

/-- Reads `n` records from a position of the data on. `seen` are the places of the records before. -/
def decodeRecords (mega : Coord) (data : ByteArray) :
    (n start : Nat) → (seen : List Local) → Except DecodeError (List Record)
  | 0, _, _ => .ok []
  | n + 1, start, seen =>
    let x := Chunk.byteAt data (start + 1)
    let y := Chunk.byteAt data (start + 2)
    let z := Chunk.byteAt data (start + 3)
    match placeOfBytes? x y z with
    | none => .error (.misplaced mega x y z)
    | some l =>
      if l ∈ seen then .error (.repeated mega l)
      else
        match decodeRecords mega data n (start + recordSize) (l :: seen) with
        | .error e => .error e
        | .ok rest => .ok (⟨l, Chunk.byteAt data start != 0, start + 4⟩ :: rest)

/-- Checks data and takes them apart, without making any chunk (`parseMegaChunk`). -/
def parse (data : ByteArray) : Except DecodeError (Coord × List Record) :=
  if data.size < headerSize then .error (.short data.size)
  else
    let body := data.size - headerSize
    if body % recordSize ≠ 0 then .error (.ragged body)
    else
      let mega := decodeHeader data
      match decodeRecords mega data (body / recordSize) headerSize [] with
      | .error e => .error e
      | .ok records => .ok (mega, records)

/-- Makes the chunk of a record in the arena and puts it in its place. -/
def placeRecord (data : ByteArray) (state : Megachunk × Arena) (r : Record) : Megachunk × Arena :=
  let (m, a) := state
  let (h, a) := a.allocate
  let chunk := Chunk.decodeFrom data r.cellsAt
  (m.place r.place h, a.modify h fun d => { d with chunk := chunk, generated := r.generated })

/-- Makes the chunks of checked records in the arena (`placeMegaChunk`). -/
def ofRecords (mega : Coord) (data : ByteArray) (records : List Record) (a : Arena) :
    Megachunk × Arena :=
  records.foldl (placeRecord data) (empty mega, a)

/-- The megachunk behind some bytes, with its chunks in the arena (`DeserializeMegaChunk`). -/
def decode (data : ByteArray) (a : Arena) : Except DecodeError (Megachunk × Arena) :=
  match parse data with
  | .error e => .error e
  | .ok (mega, records) => .ok (ofRecords mega data records a)

end BlockWorld.Megachunk
