import BlockWorld.Grid.Coord
/-!
Names of the entries that hold megachunks, as in `megachunk_0_-1_2.bin`.
-/
namespace BlockWorld.Save.EntryName

open Grid

/-- What every name starts with. -/
def head : List Char := "megachunk_".toList

/-- What every name ends with. -/
def tail : List Char := ".bin".toList

/-- The name of the entry of a megachunk (`MegaChunkEntryName`). -/
def ofCoord (c : Coord) : String :=
  "megachunk_" ++ Text.integer c.x ++ "_" ++ Text.integer c.y ++ "_" ++ Text.integer c.z ++ ".bin"

/-- A number, if the characters are one. -/
def number? (cs : List Char) : Option Int64 := (Text.readInteger cs).toOption

/-- The part of a name between its fixed start and end. -/
def middle? (cs : List Char) : Option (List Char) :=
  if head.isPrefixOf cs && tail.isSuffixOf cs && head.length + tail.length ≤ cs.length then
    some ((cs.drop head.length).take (cs.length - head.length - tail.length))
  else none

/-- The megachunk that a name stands for; other names stand for none (`ParseMegaChunkEntryName`). -/
def parse? (name : String) : Option Coord := do
  let middle ← middle? name.toList
  match middle.splitOn '_' with
  | [x, y, z] => do
    let x ← number? x
    let y ← number? y
    let z ← number? z
    some ⟨x, y, z⟩
  | _ => none

end BlockWorld.Save.EntryName
