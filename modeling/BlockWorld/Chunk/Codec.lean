import BlockWorld.Chunk.Basic
/-!
Chunks as bytes. Every cell takes three bytes, in the order of the places: the block type with the
high byte first, and the damage in steps of 1/256.
-/
namespace BlockWorld

open Grid Block

/-- The number of bytes of a cell. -/
def Cell.recordSize : Nat := 3

/-- A damage in steps of 1/256, rounded down and counted modulo 256, so that a full damage is 0
(`quantizeDamage`). -/
def quantizeDamage (d : Float32) : UInt8 :=
  let steps := d * 256
  if steps < 0 then
    let cut := (-steps).toUInt64
    let up := if cut.toFloat32 < -steps then cut + 1 else cut
    0 - up.toUInt8
  else steps.toUInt64.toUInt8

/-- The damage behind a byte. -/
def damageOfByte (b : UInt8) : Float32 := b.toFloat32 / 256

/-- The high byte of a block type. -/
def highByte (id : BlockId) : UInt8 := (id >>> 8).toUInt8

/-- The low byte of a block type. -/
def lowByte (id : BlockId) : UInt8 := id.toUInt8

/-- The block type of two bytes. -/
def blockOfBytes (high low : UInt8) : BlockId := high.toUInt16 <<< 8 ||| low.toUInt16

/-- The three bytes of a cell. -/
def Cell.record (b : Cell) : List UInt8 := [highByte b.kind, lowByte b.kind, quantizeDamage b.damage]

/-- The cell of three bytes; its visible faces are not known. -/
def Cell.ofBytes (high low damage : UInt8) : Cell :=
  ⟨blockOfBytes high low, damageOfByte damage, .unknown⟩

/-- Data with the wrong number of bytes were given for a chunk. -/
structure Chunk.SizeError where
  size : Nat
  deriving DecidableEq, Repr

namespace Chunk

/-- The number of bytes of a chunk. -/
def encodedSize : Nat := volume * Cell.recordSize

/-- Appends the bytes of a cell. -/
@[inline] def appendCell (out : ByteArray) (b : Cell) : ByteArray :=
  ((out.push (highByte b.kind)).push (lowByte b.kind)).push (quantizeDamage b.damage)

/-- Appends the bytes of a chunk (`Chunk.serializeInto`). -/
def appendTo (c : Chunk) (out : ByteArray) : ByteArray := c.cells.foldl appendCell out

/-- The bytes of a chunk (`Chunk.Serialize`). -/
def encode (c : Chunk) : ByteArray := c.appendTo (ByteArray.emptyWithCapacity encodedSize)

/-- The wording of a size error. -/
def SizeError.message (e : SizeError) : String :=
  "chunk payload is " ++ toString e.size ++ " bytes, want " ++ toString encodedSize ++
    ": corrupt data"

instance : Fault SizeError := ⟨SizeError.message, fun _ => [.corrupt]⟩

/-- The byte at a position, zero behind the end. -/
@[inline] def byteAt (data : ByteArray) (i : Nat) : UInt8 := data[i]?.getD 0

/-- The cell with number `i` of the chunk whose bytes start at `start`. -/
@[inline] def cellAt (data : ByteArray) (start i : Nat) : Cell :=
  let at_ := start + i * Cell.recordSize
  .ofBytes (byteAt data at_) (byteAt data (at_ + 1)) (byteAt data (at_ + 2))

/-- The chunk whose bytes start at a position of some data. -/
def decodeFrom (data : ByteArray) (start : Nat) : Chunk :=
  ⟨Vector.ofFn fun i => cellAt data start i.val, false⟩

/-- The chunk behind some bytes, which have to be exactly as many as a chunk has. -/
def decode (data : ByteArray) : Except SizeError Chunk :=
  if data.size = encodedSize then .ok (decodeFrom data 0) else .error ⟨data.size⟩

/-- Replaces the cells of a chunk, one after the other, by those whose bytes start at a position. The
picture is out of date afterwards. -/
def overwrite (c : Chunk) (data : ByteArray) (start : Nat) : Chunk :=
  (Fin.foldl volume (fun c i => c.setCell (.ofIndex i) (cellAt data start i.val)) c).invalidate

/-- Reads bytes into a chunk, which keeps what it holds if they are not exactly as many as a chunk has
(`Chunk.Deserialize`). -/
def load (c : Chunk) (data : ByteArray) : Chunk × Except SizeError Unit :=
  if data.size = encodedSize then (c.overwrite data 0, .ok ()) else (c, .error ⟨data.size⟩)

end Chunk

end BlockWorld
