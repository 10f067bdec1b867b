import BlockWorld.Chunk.Basic
/-!
The arena: storage for chunks that hands out numbered slots and uses freed slots again. Slots live
in pages of sixteen, so growing the arena moves no chunk. A slot taken from the free list is made
fresh when it is handed out, and the most recently freed slot goes first.
-/
namespace BlockWorld

open Grid

/-- A chunk and what the generator and the drawing of the world keep about it. -/
structure ChunkData where
  chunk : Chunk
  /-- The generator has filled the chunk. -/
  generated : Bool
  priority : Int64
  /-- The tick of the last change. -/
  lastTouched : UInt64

/-- The data of a new chunk (`ChunkData.reset`). -/
def ChunkData.fresh : ChunkData := ⟨.empty, false, 0, 0⟩

instance : Inhabited ChunkData := ⟨.fresh⟩

/-- The number of slots on a page. -/
abbrev pageSize : Nat := 16

/-- A page of chunks. -/
abbrev Page := Vector ChunkData pageSize

/-- Storage for chunks. -/
structure Arena where
  pages : Array Page
  /-- For every slot, whether it has been handed out. -/
  allocated : Array Bool
  /-- The slots to be used again, the next one first. -/
  free : List Nat
  /-- The number of slots handed out. -/
  live : Nat

/-- A handle that names no chunk. -/
inductive BadHandle where
  /-- The arena has only `size` slots. -/
  | outside (handle : Int) (size : Nat)
  /-- The slot is not handed out. -/
  | vacant (handle : Int)
  deriving DecidableEq, Repr

namespace Arena

/-- An arena without slots (`NewChunkArena`). -/
def empty : Arena := ⟨#[], #[], [], 0⟩

instance : Inhabited Arena := ⟨empty⟩

/-- The number of slots, handed out or free (`ChunkArena.Len`). -/
def size (a : Arena) : Nat := a.allocated.size

/-- The number of free slots (`ChunkArena.FreeCount`). -/
def freeCount (a : Arena) : Nat := a.free.length

/-- Whether a slot has been handed out. -/
def isAllocated (a : Arena) (h : Nat) : Bool := a.allocated.getD h false

/-- The page of fresh chunks that the arena grows by. -/
def freshPage : Page := Vector.replicate pageSize .fresh

/-- What a slot holds, whether it is handed out or not (`ChunkArena.slot`). -/
@[inline] def slot (a : Arena) (h : Nat) : ChunkData :=
  match a.pages[h / pageSize]? with
  | some page => page.get ⟨h % pageSize, Nat.mod_lt _ (by decide)⟩
  | none => .fresh

/-- Changes what a slot holds. -/
@[inline] def modify (a : Arena) (h : Nat) (f : ChunkData → ChunkData) : Arena :=
  { a with
    pages := a.pages.modify (h / pageSize) fun page =>
      ⟨page.toArray.modify (h % pageSize) f, by simp⟩ }

/-- Hands out a slot: the most recently freed one, made fresh, or else a new one (`ChunkArena.Allocate`). -/
def allocate (a : Arena) : Nat × Arena :=
  match a.free with
  | h :: rest =>
    let a := { a with allocated := a.allocated.setIfInBounds h true, free := rest, live := a.live + 1 }
    (h, a.modify h fun _ => .fresh)
  | [] =>
    let h := a.allocated.size
    (h, { a with
      pages := if h % pageSize = 0 then a.pages.push freshPage else a.pages
      allocated := a.allocated.push true
      live := a.live + 1 })

/-- The data of a slot that has been handed out. -/
@[inline] def get? (a : Arena) (h : Nat) : Option ChunkData :=
  if a.isAllocated h then some (a.slot h) else none

/-- What is wrong with a handle, if anything. -/
def check (a : Arena) (h : Int) : Except BadHandle Nat :=
  if h < 0 ∨ a.size ≤ h then .error (.outside h a.size)
  else if a.isAllocated h.toNat then .ok h.toNat
  else .error (.vacant h)

/-- The data behind a handle (`ChunkArena.Get`). -/
def get (a : Arena) (h : Int) : Except BadHandle ChunkData := (a.check h).map a.slot

/-- Puts a slot that has been handed out on the free list. -/
def release (a : Arena) (h : Nat) : Arena :=
  { a with
    allocated := a.allocated.setIfInBounds h false
    free := h :: a.free
    live := a.live - 1 }

/-- Frees the slot behind a handle. A bad handle changes nothing. Stands for `ChunkArena.Free`. -/
def freeHandle (a : Arena) (h : Int) : Except BadHandle Arena := (a.check h).map a.release

/-- The slots that have been handed out, in increasing order. -/
def allocatedSlots (a : Arena) : List Nat := (List.range a.size).filter a.isAllocated

/-- Frees every slot. They are put on the free list in increasing order, so the last one is used again
first. Stands for `ChunkArena.ClearAll`. -/
def clear (a : Arena) : Arena :=
  { a with
    allocated := Array.replicate a.size false
    free := a.allocatedSlots.reverse ++ a.free
    live := 0 }

end Arena

/-- The wording of a failed look-up. -/
def BadHandle.lookupMessage : BadHandle → String
  | .outside h size =>
    "chunk arena: handle " ++ toString h ++ " out of range [0, " ++ toString size ++ ")"
  | .vacant h => "chunk arena: handle " ++ toString h ++ " is not allocated"

end BlockWorld
