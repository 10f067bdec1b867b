import BlockWorld.Proofs.Grid
import BlockWorld.Proofs.Ownership
import BlockWorld.World.Edit
/-!
The chunks of a world. A world is seen as a table of megachunks and an arena; `chunkAt` is the chunk
at a place of a megachunk, and `chunk?` is the same for a position on the grid of chunks. Under
ownership, reaching for a chunk makes at most this one (`chunkAt_ensureChunk`), and a change through
its handle is seen at this place and nowhere else (`chunkAt_modifySlot`).

How the proof goes. The table of a world and its arena are what `Ownership` is about, so each operation of a
world is shown to be one of the steps there: making an empty megachunk (`table_ensureMegachunk`), putting a
handle that was just handed out (`table_createChunk`), changing a slot, and removing a megachunk with its
slots (`table_unload`, `arena_unload`). What ownership says of these steps then gives both that ownership is
kept and what becomes of every chunk. Positions come in last: a position on the grid of chunks is a megachunk
and a place in it, and two of them are equal if both are (`chunk?_eq_chunkAt`).
-/
namespace BlockWorld.World

open Grid

/-! ## Views -/

/-- The megachunks of a world by their coordinates. -/
def table (w : World) : Table := fun c => w.megachunks[c]?

/-- Every slot in use belongs to exactly one place of one megachunk. -/
def Owned (w : World) : Prop := Ownership w.table w.arena

/-- The chunk at a place of a megachunk. -/
def chunkAt (w : World) (c : Coord) (l : Local) : Option ChunkData := w.table.chunk w.arena c l

theorem handle?_eq_table (w : World) (c : Coord) :
    w.handle? c = w.table.handle c.parent c.place := by
  simp only [handle?, Table.handle, table]
  cases w.megachunks[c.parent]? <;> rfl

theorem chunk?_eq_chunkAt (w : World) (c : Coord) : w.chunk? c = w.chunkAt c.parent c.place := by
  simp only [chunk?, chunkAt, Table.chunk, handle?_eq_table]
  cases w.table.handle c.parent c.place <;> rfl

theorem block?_eq_chunk? (w : World) (p : Coord) :
    w.block? p = (w.chunk? p.parent).bind fun d => d.chunk.block? p.place := by
  simp only [block?]
  cases w.chunk? p.parent <;> rfl

theorem isGenerated_eq (w : World) (c : Coord) :
    w.isGenerated c = ((w.chunk? c).map (·.generated)).getD false := by
  simp only [isGenerated]
  cases w.chunk? c <;> rfl

/-- What ownership and the chunks of a world depend on. -/
def SameStorage (w w' : World) : Prop := w'.megachunks = w.megachunks ∧ w'.arena = w.arena

theorem SameStorage.table_eq {w w' : World} (hs : w.SameStorage w') : w'.table = w.table := by
  funext c
  rw [table, table, hs.1]

theorem SameStorage.chunkAt_eq {w w' : World} (hs : w.SameStorage w') (c : Coord) (l : Local) :
    w'.chunkAt c l = w.chunkAt c l := by
  rw [chunkAt, chunkAt, hs.table_eq, hs.2]

theorem SameStorage.owned {w w' : World} (hs : w.SameStorage w') (ho : w.Owned) : w'.Owned := by
  rw [Owned, hs.table_eq, hs.2]
  exact ho

theorem sameStorage_note (w : World) (e : Event) : w.SameStorage (w.note e) := ⟨rfl, rfl⟩

theorem tick_note (w : World) (e : Event) : (w.note e).tick = w.tick := rfl

/-! ## A new world -/

@[simp] theorem table_new (seed : Int64) (id : String) (createdAt : Data.Timestamp)
    (compression : String) : (new seed id createdAt compression).table = fun _ => none := by
  funext c
  simp [table, new]

/-- A new world has no chunks to own. -/
theorem owned_new (seed : Int64) (id : String) (createdAt : Data.Timestamp) (compression : String) :
    (new seed id createdAt compression).Owned := by
  rw [Owned, table_new]
  exact Ownership.none Arena.sound_empty fun h => by simp [new, Arena.empty, Arena.isAllocated]

/-! ## Reaching for a chunk -/

/-- A megachunk that is made empty, or was there before. -/
theorem table_ensureMegachunk (w : World) (c : Coord) :
    (w.ensureMegachunk c).table
      = if (w.table c).isSome then w.table else w.table.set c (some (.empty c)) := by
  have hcontains : w.megachunks.contains c = (w.table c).isSome :=
    Std.HashMap.contains_eq_isSome_getElem?
  rw [ensureMegachunk, hcontains]
  split
  · rfl
  · funext c'
    simp only [table, note, Table.set, Function.update_apply, Std.HashMap.getElem?_insert]
    by_cases he : c' = c
    · simp [he]
    · rw [if_neg (by simpa using Ne.symm he), if_neg he]

@[simp] theorem arena_ensureMegachunk (w : World) (c : Coord) :
    (w.ensureMegachunk c).arena = w.arena := by
  rw [ensureMegachunk]
  split <;> rfl

/-- The megachunk is there afterwards, and it is empty or the one from before. -/
theorem table_ensureMegachunk_self (w : World) (c : Coord) :
    (w.ensureMegachunk c).table c = some ((w.table c).getD (.empty c)) := by
  rw [table_ensureMegachunk]
  cases hc : w.table c <;> simp [hc]

theorem handle_ensureMegachunk (w : World) (c c' : Coord) (l : Local) :
    (w.ensureMegachunk c).table.handle c' l = w.table.handle c' l := by
  rw [table_ensureMegachunk]
  split
  · rfl
  · rename_i hc
    exact Ownership.handle_addEmpty (Option.not_isSome_iff_eq_none.mp hc) c' l

theorem chunkAt_ensureMegachunk (w : World) (c c' : Coord) (l : Local) :
    (w.ensureMegachunk c).chunkAt c' l = w.chunkAt c' l := by
  rw [chunkAt, chunkAt, Table.chunk, Table.chunk, handle_ensureMegachunk, arena_ensureMegachunk]

theorem Owned.ensureMegachunk {w : World} (ho : w.Owned) (c : Coord) :
    (w.ensureMegachunk c).Owned := by
  rw [Owned, arena_ensureMegachunk, table_ensureMegachunk]
  split
  · exact ho
  · rename_i hc
    exact Ownership.addEmpty ho (Option.not_isSome_iff_eq_none.mp hc)

/-- A new chunk is a handle that the arena hands out, put into the megachunk. -/
theorem table_createChunk {w : World} {c : Coord} {m : Megachunk} (hm : w.table c.parent = some m) :
    (w.createChunk c).2.table = w.table.set c.parent (some (m.place c.place w.arena.allocate.1)) := by
  funext c'
  simp only [table, createChunk, note, observe, Table.set, Function.update_apply,
    Std.HashMap.getElem?_modify]
  by_cases he : c' = c.parent
  · subst he
    have hget : w.megachunks[c.parent]? = some m := hm
    simp [hget]
  · rw [if_neg (by simpa using Ne.symm he), if_neg he]

@[simp] theorem arena_createChunk (w : World) (c : Coord) :
    (w.createChunk c).2.arena = w.arena.allocate.2 := rfl

@[simp] theorem fst_createChunk (w : World) (c : Coord) :
    (w.createChunk c).1 = w.arena.allocate.1 := rfl

section Reaching

variable {w : World} {c : Coord}

/-- The megachunk that a missing chunk is put into has its place free. -/
theorem place_free_of_handle?_none (hn : w.handle? c = none) :
    ((w.table c.parent).getD (.empty c.parent)).handle? c.place = none := by
  rw [handle?_eq_table, Table.handle] at hn
  cases hm : w.table c.parent with
  | none => exact Megachunk.handle?_empty c.parent c.place
  | some m =>
    rw [hm] at hn
    exact hn

theorem ensureChunk_of_some {h : Nat} (hh : w.handle? c = some h) : w.ensureChunk c = (h, w) := by
  rw [ensureChunk, hh]

theorem ensureChunk_of_none (hn : w.handle? c = none) :
    w.ensureChunk c = (w.ensureMegachunk c.parent).createChunk c := by
  rw [ensureChunk, hn]

/-- Reaching for a chunk keeps ownership. -/
theorem Owned.ensureChunk (ho : w.Owned) (c : Coord) : (w.ensureChunk c).2.Owned := by
  cases hh : w.handle? c with
  | some h =>
    rw [ensureChunk_of_some hh]
    exact ho
  | none =>
    have ho' := ho.ensureMegachunk c.parent
    rw [ensureChunk_of_none hh, Owned, arena_createChunk,
      table_createChunk (table_ensureMegachunk_self w c.parent)]
    exact ho'.put (table_ensureMegachunk_self w c.parent) (place_free_of_handle?_none hh)
      ho'.sound.allocate

theorem tick_ensureChunk (w : World) (c : Coord) : (w.ensureChunk c).2.tick = w.tick := by
  rw [ensureChunk, ensureMegachunk]
  split
  · rfl
  · split <;> rfl

/-- Reaching for a chunk makes its megachunk, if it is not there, and no other. -/
theorem table_ensureChunk_isSome (m : Coord) :
    ((w.ensureChunk c).2.table m).isSome = true ↔ (w.table m).isSome = true ∨ m = c.parent := by
  cases hh : w.handle? c with
  | some h =>
    have hparent : (w.table c.parent).isSome = true := by
      have htable := hh
      rw [handle?_eq_table, Table.handle, Option.bind_eq_some_iff] at htable
      obtain ⟨m', hm', -⟩ := htable
      rw [hm']
      rfl
    rw [ensureChunk_of_some hh]
    refine ⟨.inl, fun h => ?_⟩
    cases h with
    | inl hm => exact hm
    | inr he => exact he ▸ hparent
  | none =>
    rw [ensureChunk_of_none hh, table_createChunk (table_ensureMegachunk_self w c.parent)]
    by_cases he : m = c.parent
    · simp [he]
    · rw [Table.set_other _ _ he, table_ensureMegachunk]
      split
      · simp [he]
      · rw [Table.set_other _ _ he]
        simp [he]

/-- The handle that is given back is the one of the chunk. -/
theorem handle_ensureChunk (c : Coord) :
    (w.ensureChunk c).2.table.handle c.parent c.place = some (w.ensureChunk c).1 := by
  cases hh : w.handle? c with
  | some h =>
    rw [ensureChunk_of_some hh, ← handle?_eq_table]
    exact hh
  | none =>
    have hm := table_ensureMegachunk_self w c.parent
    rw [ensureChunk_of_none hh, table_createChunk hm, Ownership.handle_put hm,
      if_pos ⟨rfl, rfl⟩, fst_createChunk]

/-- Reaching for a chunk makes it, fresh, if it is not there, and changes no other chunk. -/
theorem chunkAt_ensureChunk (ho : w.Owned) (c c' : Coord) (l' : Local) :
    (w.ensureChunk c).2.chunkAt c' l'
      = if c' = c.parent ∧ l' = c.place then some ((w.chunk? c).getD .fresh)
        else w.chunkAt c' l' := by
  cases hh : w.handle? c with
  | some h =>
    rw [ensureChunk_of_some hh]
    split
    · rename_i he
      have hsome : w.chunk? c = some (w.arena.slot h) := by
        rw [chunk?_eq_chunkAt, chunkAt, ho.chunk_eq, ← handle?_eq_table, hh, Option.map_some]
      rw [he.1, he.2, ← chunk?_eq_chunkAt, hsome, Option.getD_some]
    · rfl
  | none =>
    have ho' := ho.ensureMegachunk c.parent
    have hm := table_ensureMegachunk_self w c.parent
    have hnone : w.chunk? c = none := by rw [chunk?, hh]
    rw [ensureChunk_of_none hh, chunkAt, arena_createChunk, table_createChunk hm,
      ho'.chunk_put hm (place_free_of_handle?_none hh) ho'.sound.allocate, hnone,
      Option.getD_none]
    split
    · rfl
    · exact chunkAt_ensureMegachunk w c.parent c' l'

end Reaching

/-! ## Changing a chunk -/

@[simp] theorem table_modifySlot (w : World) (h : Nat) (f : ChunkData → ChunkData) :
    (w.modifySlot h f).table = w.table := rfl

theorem Owned.modifySlot {w : World} (ho : w.Owned) {c : Coord} {l : Local} {h : Nat}
    (hh : w.table.handle c l = some h) (f : ChunkData → ChunkData) : (w.modifySlot h f).Owned :=
  Ownership.modify ho (ho.held c l h hh) f

/-- A change through the handle of a place is seen at this place only. -/
theorem chunkAt_modifySlot {w : World} (ho : w.Owned) {c : Coord} {l : Local} {h : Nat}
    (hh : w.table.handle c l = some h) (f : ChunkData → ChunkData) (c' : Coord) (l' : Local) :
    (w.modifySlot h f).chunkAt c' l'
      = if c' = c ∧ l' = l then (w.chunkAt c l).map f else w.chunkAt c' l' :=
  Ownership.chunk_modify ho hh f c' l'

theorem megachunks_forgetFaces (w : World) (p : Coord) :
    (w.forgetFaces p).megachunks = w.megachunks := by
  rw [forgetFaces]
  split <;> rfl

theorem megachunks_refresh (w : World) (p : Coord) :
    (w.refresh p).megachunks = w.megachunks := by
  have hfold : ∀ (ps : List Coord) (w : World),
      (ps.foldl forgetFaces w).megachunks = w.megachunks := by
    intro ps
    induction ps with
    | nil => exact fun _ => rfl
    | cons p ps ih => exact fun w => (ih _).trans (w.megachunks_forgetFaces p)
  exact hfold (surroundings p) w

/-- Putting a block makes the megachunk that holds it, if it is not there, and no other. -/
theorem table_setBlock_isSome (w : World) (p : Coord) (id : Block.BlockId) (m : Coord) :
    ((w.setBlock p id).table m).isSome = true
      ↔ (w.table m).isSome = true ∨ m = p.parent.parent := by
  have htable : (w.setBlock p id).table m = (w.ensureChunk p.parent).2.table m := by
    rw [table, setBlock, megachunks_refresh]
    rfl
  rw [htable, table_ensureChunk_isSome]

/-! ## Removing chunks -/

theorem Owned.reset {w : World} (ho : w.Owned) : w.reset.Owned := by
  have htable : w.reset.table = fun _ => none := by
    funext c
    simp [table, World.reset, observe, note]
  rw [Owned, htable]
  exact Ownership.none ho.sound.clear (Arena.isAllocated_clear w.arena)

theorem chunkAt_reset (w : World) (c : Coord) (l : Local) : w.reset.chunkAt c l = none := by
  simp [chunkAt, Table.chunk, Table.handle, table, World.reset, observe, note]

theorem table_unload (w : World) (c : Coord) : (w.unload c).2.table = w.table.set c none := by
  funext c'
  simp only [unload]
  cases hc : w.megachunks[c]? with
  | none =>
    by_cases he : c' = c
    · subst he
      rw [Table.set_self]
      exact hc
    · rw [Table.set_other _ _ he]
  | some m =>
    simp only [table, observe, Table.set, Function.update_apply, Std.HashMap.getElem?_erase]
    by_cases he : c' = c
    · simp [he]
    · rw [if_neg (by simpa using Ne.symm he), if_neg he]

theorem arena_unload {w : World} {c : Coord} {m : Megachunk} (hm : w.table c = some m) :
    (w.unload c).2.arena = (Megachunk.freeAll w.arena (m.occupied.map (·.2))).1 := by
  have hget : w.megachunks[c]? = some m := hm
  simp only [unload, hget, observe, Megachunk.release]

theorem unload_of_none {w : World} {c : Coord} (hm : w.table c = none) : w.unload c = (false, w) := by
  have hget : w.megachunks[c]? = none := hm
  simp only [unload, hget]

theorem tick_unload (w : World) (c : Coord) : (w.unload c).2.tick = w.tick := by
  cases hm : w.megachunks[c]? with
  | none => simp only [unload, hm]
  | some m => simp only [unload, hm, observe]

theorem id_unload (w : World) (c : Coord) : (w.unload c).2.id = w.id := by
  cases hm : w.megachunks[c]? with
  | none => simp only [unload, hm]
  | some m => simp only [unload, hm, observe]

theorem Owned.unload {w : World} (ho : w.Owned) (c : Coord) : (w.unload c).2.Owned := by
  cases hm : w.table c with
  | none =>
    rw [unload_of_none hm]
    exact ho
  | some m =>
    rw [Owned, table_unload, arena_unload hm]
    exact Ownership.remove ho hm

/-- Unloading a megachunk removes its chunks and leaves all others as they are. -/
theorem chunkAt_unload {w : World} (ho : w.Owned) (c c' : Coord) (l' : Local) :
    (w.unload c).2.chunkAt c' l' = if c' = c then none else w.chunkAt c' l' := by
  cases hm : w.table c with
  | none =>
    rw [unload_of_none hm]
    split
    · rename_i he
      rw [he, chunkAt, Table.chunk, Table.handle, hm]
      rfl
    · rfl
  | some m =>
    rw [chunkAt, table_unload, arena_unload hm]
    exact Ownership.chunk_remove ho hm c' l'

/-! ## The grid of chunks -/

section Grid

variable {w : World} {c : Coord}

/-- Under ownership a chunk is there exactly when it has a handle, and is what the handle leads to. -/
theorem Owned.chunk?_eq (ho : w.Owned) (c : Coord) :
    w.chunk? c = (w.handle? c).map w.arena.slot := by
  rw [chunk?_eq_chunkAt, handle?_eq_table]
  exact Ownership.chunk_eq ho c.parent c.place

theorem Owned.chunk?_of_handle? (ho : w.Owned) {h : Nat} (hh : w.handle? c = some h) :
    w.chunk? c = some (w.arena.slot h) := by
  rw [ho.chunk?_eq, hh, Option.map_some]

theorem Owned.handle?_eq_none (ho : w.Owned) : w.handle? c = none ↔ w.chunk? c = none := by
  rw [ho.chunk?_eq, Option.map_eq_none_iff]

theorem chunk?_ensureChunk (ho : w.Owned) (c c' : Coord) :
    (w.ensureChunk c).2.chunk? c'
      = if c' = c then some ((w.chunk? c).getD .fresh) else w.chunk? c' := by
  simp only [chunk?_eq_chunkAt, chunkAt_ensureChunk ho, Coord.parent_place_eq_iff]

theorem handle?_ensureChunk (w : World) (c : Coord) :
    (w.ensureChunk c).2.handle? c = some (w.ensureChunk c).1 := by
  rw [handle?_eq_table]
  exact handle_ensureChunk c

theorem chunk?_modifySlot (ho : w.Owned) {h : Nat} (hh : w.handle? c = some h)
    (f : ChunkData → ChunkData) (c' : Coord) :
    (w.modifySlot h f).chunk? c' = if c' = c then (w.chunk? c).map f else w.chunk? c' := by
  rw [handle?_eq_table] at hh
  simp only [chunk?_eq_chunkAt, chunkAt_modifySlot ho hh, Coord.parent_place_eq_iff]

theorem Owned.modifySlot_of_handle? (ho : w.Owned) {h : Nat} (hh : w.handle? c = some h)
    (f : ChunkData → ChunkData) : (w.modifySlot h f).Owned := by
  rw [handle?_eq_table] at hh
  exact ho.modifySlot hh f

@[simp] theorem chunk?_new (seed : Int64) (id : String) (createdAt : Data.Timestamp)
    (compression : String) (c : Coord) : (new seed id createdAt compression).chunk? c = none := by
  rw [chunk?_eq_chunkAt, chunkAt, Table.chunk, Table.handle, table_new]
  rfl

theorem chunk?_reset (w : World) (c : Coord) : w.reset.chunk? c = none := by
  rw [chunk?_eq_chunkAt, chunkAt_reset]

theorem chunk?_unload (ho : w.Owned) (c c' : Coord) :
    (w.unload c).2.chunk? c' = if c'.parent = c then none else w.chunk? c' := by
  simp only [chunk?_eq_chunkAt, chunkAt_unload ho]

end Grid

end BlockWorld.World
