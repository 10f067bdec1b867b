import BlockWorld.Proofs.MegachunkCodec
import BlockWorld.Proofs.World.Loading
/-!
Moves that trust nothing. The plain operations take it for granted that a handle at a place leads to
a slot in use, that a missing chunk can be made, and that the records of a megachunk fit into the
bytes set aside for them. Here each operation is given with these tests, and fails with a `Violation`
where one does not hold. In a world whose handles are owned no test ever fails, and the tested
operations do the same as the plain ones.

How the proof goes. Each operation with tests has an equation that says it gives what the plain one gives, in
worlds whose handles are owned (`slot_eq`, `handle?_eq`, `block?_eq` and so on up to `move_eq`). Ownership is
needed for each test and kept by each operation, so the equations of composed operations follow from those of
their parts. Loops are folds that may fail; such a fold succeeds if each step does as long as something holds
that the steps keep (`foldlM_eq_ok`). The room for the records of a megachunk is a count: as many are set
aside as there are chunks, each takes the same number of bytes, and so there is room for all that are left
(`appendRecords_eq`).
-/
namespace BlockWorld

open Grid Block Save

/-- A promise that does not hold. -/
inductive Violation where
  /-- A megachunk holds a handle that the arena has not handed out. -/
  | handle (e : BadHandle)
  /-- A megachunk refuses a new chunk. -/
  | create (e : Megachunk.CreateError)
  /-- A chunk that a block was seen in is not there. -/
  | missing (chunk : Coord)
  /-- A record does not fit into the bytes set aside. -/
  | overrun (size room : Nat)

namespace Checked

/-! ## Looking -/

/-- What a handle leads to. -/
def slot (a : Arena) (h : Nat) : Except Violation ChunkData :=
  match a.get h with
  | .ok d => .ok d
  | .error e => .error (.handle e)

/-- The handle of a chunk, after a look at what it leads to. -/
def handle? (w : World) (c : Coord) : Except Violation (Option Nat) :=
  match w.handle? c with
  | none => .ok none
  | some h => do
    let _ ← slot w.arena h
    return some h

/-- The block at a position, unless it is air. -/
def block? (w : World) (p : Coord) : Except Violation (Option Cell) := do
  match ← handle? w p.parent with
  | none => return none
  | some h => return (w.arena.slot h).chunk.block? p.place

/-- The first block on a ray. -/
def firstHit (w : World) (origin direction : Space.Point Float) :
    (n i : Nat) → (previous : Space.Point Float) → Except Violation (Option (Coord × Coord))
  | 0, _, _ => return none
  | n + 1, i, previous => do
    let p := World.sample origin direction i
    if (← block? w p.floor).isSome then return some (p.floor, previous.floor)
    else firstHit w origin direction n (i + 1) p

/-- Pushes a box out of the blocks around it. -/
def escape (w : World) (box : Space.Box Float) : Except Violation (World.Escape Float) :=
  let lo := box.min.floor - ⟨1, 1, 1⟩
  let hi := box.max.ceil
  (span lo.x hi.x).foldlM (fun s x =>
    (span lo.y hi.y).foldlM (fun s y =>
      (span lo.z hi.z).foldlM (fun s z => do
        let _ ← block? w ⟨x, y, z⟩
        return s.pushFrom w ⟨x, y, z⟩) s) s) ⟨box, .zero⟩

/-- The visible faces at a position, for which blocks outside of its chunk may be looked at. -/
def visibleFaces (r : Registry) (w : World) (p : Coord) : Except Violation World := do
  match ← handle? w p.parent with
  | none => return w
  | some h =>
    if (w.arena.slot h).chunk.computesFaces p.place then
      (Chunk.outsideNeighbours p.place (p.parent.scale edge)).forM fun q => do
        let _ ← block? w q
    return (w.visibleFaces r p).2

/-! ## Editing -/

/-- The handle of a chunk, which is made if it is not there. -/
def ensureChunk (w : World) (c : Coord) : Except Violation (Nat × World) := do
  match ← handle? w c with
  | some h => return (h, w)
  | none =>
    let w := w.ensureMegachunk c.parent
    match ((w.megachunks[c.parent]?).getD (.empty c.parent)).create w.arena c with
    | .error e => throw (.create e)
    | .ok _ =>
      let made := w.createChunk c
      let _ ← slot made.2.arena made.1
      return made

/-- Forgets the visible faces at a position. -/
def forgetFaces (w : World) (p : Coord) : Except Violation World := do
  let _ ← handle? w p.parent
  return w.forgetFaces p

/-- Forgets the visible faces at a position and at its neighbours. -/
def refresh (w : World) (p : Coord) : Except Violation World :=
  (World.surroundings p).foldlM forgetFaces w

/-- Puts an undamaged block at a position. -/
def setBlock (w : World) (p : Coord) (id : BlockId) : Except Violation World := do
  let tick := w.tick
  let (h, w) ← ensureChunk w p.parent
  let w := w.modifySlot h fun d =>
    { d with chunk := d.chunk.setBlock p.place id, lastTouched := tick }
  refresh { w with gauges := w.gauges.blockWritten } p

/-- Digs at a position. -/
def damageBlock (r : Registry) (w : World) (p : Coord) (amount : Float32) :
    Except Violation World := do
  match World.strike r (← block? w p) amount with
  | .none => return w
  | .broken => return (← setBlock w p air).note (.blockBroken p)
  | .damaged _ =>
    match ← handle? w p.parent with
    | none => throw (.missing p.parent)
    | some _ => return (w.damageBlock r p amount).2

/-- Changes a chunk, which is made if it is not there. -/
def mark (w : World) (c : Coord) (f : ChunkData → ChunkData) : Except Violation World := do
  let (h, w) ← ensureChunk w c
  return w.modifySlot h f

/-- Removes a megachunk. -/
def unload (w : World) (mega : Coord) : Except Violation World :=
  match w.megachunks[mega]? with
  | none => return w
  | some m =>
    match (m.release w.arena).2.2 with
    | [] => return (w.unload mega).2
    | e :: _ => throw (.handle e)

/-! ## Saving and loading -/

/-- Appends the record of a chunk, which has to fit into what is set aside. -/
def appendRecord (a : Arena) (room : Nat) (out : ByteArray) (e : Local × Nat) :
    Except Violation ByteArray := do
  let d ← slot a e.2
  if out.size + Megachunk.recordSize ≤ room then return Megachunk.appendRecord out (e.1, d)
  else throw (.overrun (out.size + Megachunk.recordSize) room)

/-- The bytes of a megachunk, whose records have to fit into what is set aside for them. -/
def encode (m : Megachunk) (a : Arena) :
    Except Violation (Except Megachunk.HeaderError ByteArray) :=
  match Megachunk.encodeHeader m.coord with
  | .error e => return .error e
  | .ok header => do
    let room := Megachunk.headerSize + m.count * Megachunk.recordSize
    let out ← m.occupied.foldlM (appendRecord a room) (Megachunk.start header room)
    return .ok out

/-- Saves a world. -/
def save (w : World) (savedAt : Data.Timestamp) (archive : MemoryArchive) :
    Except Violation World := do
  w.coords.forM fun c => do
    let _ ← encode ((w.megachunks[c]?).getD (.empty c)) w.arena
  return (w.saveTo savedAt MemoryArchive.sink archive).2.2

/-- Makes the chunk of a record. -/
def placeRecord (data : ByteArray) (state : Megachunk × Arena) (r : Megachunk.Record) :
    Except Violation (Megachunk × Arena) := do
  let _ ← slot state.2.allocate.2 state.2.allocate.1
  return Megachunk.placeRecord data state r

/-- Puts a checked megachunk into a world. -/
def place (w : World) (p : World.ParsedMegachunk) : Except Violation World := do
  let (m, arena) ← p.records.foldlM (placeRecord p.data) (.empty p.coord, w.arena)
  return { w with megachunks := w.megachunks.insert p.coord m, arena }

/-- Loads a save. -/
def load (w : World) (source : Source) : Except Violation World :=
  match World.parseSave source with
  | .error _ => return (w.loadFrom source).2
  | .ok save => do
    let _ ← save.megachunks.foldlM place w.cleared
    return (w.loadFrom source).2

/-! ## The generator -/

/-- Fills a chunk unless it has been filled before. -/
def generateChunk (g : Terrain.Landscape) (chunk : Coord) (w : World) : Except Violation World := do
  let _ ← handle? w chunk
  if w.isGenerated chunk then return w
  else
    let w ← (g.chunkWrites chunk).foldlM (fun w (p, id) => setBlock w p id) w
    mark w chunk fun d => { d with generated := true }

/-! ## Moves -/

/-- A question to a world. -/
def ask (q : Question) (w : World) : Except Violation World :=
  match q with
  | .refresh p => refresh w p
  | .visibleFaces r p => visibleFaces r w p
  | .block? p => do
    let _ ← block? w p
    return w
  | .chunk? c => do
    let _ ← handle? w c
    return w
  | .raycast origin direction length before => do
    let _ ← firstHit w origin direction.normalized (World.raySteps length + 1) 0 origin
    return (w.raycast origin direction length before).2
  | .collide box => do
    let _ ← escape w box
    return (w.collide box).2.2

/-- An action on a world. -/
def act (a : Action) (w : World) : Except Violation World :=
  match a with
  | .setBlock p id => setBlock w p id
  | .damageBlock r p amount => damageBlock r w p amount
  | .markChunk c priority => mark w c fun d => { d with priority }
  | .markGenerated c => mark w c fun d => { d with generated := true }
  | .advanceTick => return w.advanceTick
  | .reset => return w.reset
  | .unload mega => unload w mega
  | .ask q => ask q w

/-- A move of a world. -/
def move (m : Move) (w : World) : Except Violation World :=
  match m with
  | .act a => act a w
  | .markCached c => do
    let _ ← handle? w c
    return w.markCached c
  | .save savedAt archive => save w savedAt archive
  | .load source => load w source
  | .generateChunk g chunk => generateChunk g chunk w
  | .generateSpawn g radius =>
    (Terrain.spawnChunks g radius).foldlM (fun w c => generateChunk g c w) w

/-- Moves one after the other. -/
def run (moves : List Move) (w : World) : Except Violation World :=
  moves.foldlM (fun w m => move m w) w

/-! ## No test fails -/

section Folds

variable {σ α ε : Type}

theorem ok_bind {β : Type} (a : α) (f : α → Except ε β) : (Except.ok a >>= f) = f a := rfl

/-- Steps that succeed as long as something holds, which they keep, succeed one after the other. -/
theorem foldlM_eq_ok {P : σ → Prop} {f : σ → α → Except ε σ} {g : σ → α → σ} (l : List α)
    (hf : ∀ s, P s → ∀ a ∈ l, f s a = .ok (g s a)) (hg : ∀ s, P s → ∀ a ∈ l, P (g s a)) {s : σ}
    (hs : P s) : l.foldlM f s = .ok (l.foldl g s) := by
  induction l generalizing s with
  | nil => rfl
  | cons a l ih =>
    rw [List.foldlM_cons, hf s hs a List.mem_cons_self]
    exact ih (fun s hs b hb => hf s hs b (List.mem_cons_of_mem a hb))
      (fun s hs b hb => hg s hs b (List.mem_cons_of_mem a hb)) (hg s hs a List.mem_cons_self)

theorem forM_eq_ok {f : α → Except ε PUnit} (l : List α) (hf : ∀ a ∈ l, f a = .ok ⟨⟩) :
    l.forM f = .ok ⟨⟩ := by
  induction l with
  | nil => rfl
  | cons a l ih =>
    change (f a >>= fun _ => l.forM f) = .ok ⟨⟩
    rw [hf a List.mem_cons_self]
    exact ih fun b hb => hf b (List.mem_cons_of_mem a hb)

end Folds

theorem slot_eq {a : Arena} {h : Nat} (hh : a.isAllocated h = true) :
    slot a h = .ok (a.slot h) := by
  rw [slot, Arena.get, Arena.check_natCast hh]
  rfl

section Looking

variable {w : World} (ho : w.Owned)
include ho

theorem handle?_eq (c : Coord) : handle? w c = .ok (w.handle? c) := by
  rw [handle?]
  cases hh : w.handle? c with
  | none => rfl
  | some h =>
    have hused : w.arena.isAllocated h = true := by
      rw [World.handle?_eq_table] at hh
      exact ho.held c.parent c.place h hh
    dsimp only
    rw [slot_eq hused]
    rfl

theorem block?_eq (p : Coord) : block? w p = .ok (w.block? p) := by
  rw [block?, handle?_eq ho, World.block?_eq_chunk?, ho.chunk?_eq]
  cases w.handle? p.parent <;> rfl

theorem firstHit_eq (origin direction : Space.Point Float) (n i : Nat)
    (previous : Space.Point Float) :
    firstHit w origin direction n i previous
      = .ok (w.firstHit origin direction n i previous) := by
  induction n generalizing i previous with
  | zero => rfl
  | succ n ih =>
    rw [firstHit, World.firstHit, block?_eq ho, ok_bind]
    split
    · rfl
    · exact ih (i + 1) (World.sample origin direction i)

theorem escape_eq (box : Space.Box Float) : escape w box = .ok (w.escape box) := by
  have hpush : ∀ (s : World.Escape Float) (q : Coord),
      (do let _ ← block? w q; return s.pushFrom w q : Except Violation _)
        = .ok (s.pushFrom w q) := by
    intro s q
    rw [block?_eq ho]
    rfl
  rw [escape, World.escape]
  refine foldlM_eq_ok (P := fun _ => True) _ (fun s _ x _ => ?_) (fun _ _ _ _ => trivial) trivial
  refine foldlM_eq_ok (P := fun _ => True) _ (fun s _ y _ => ?_) (fun _ _ _ _ => trivial) trivial
  exact foldlM_eq_ok (P := fun _ => True) _ (fun s _ z _ => hpush s ⟨x, y, z⟩)
    (fun _ _ _ _ => trivial) trivial

theorem visibleFaces_eq (r : Registry) (p : Coord) :
    visibleFaces r w p = .ok (w.visibleFaces r p).2 := by
  have hneighbours : ((Chunk.outsideNeighbours p.place (p.parent.scale edge)).forM fun q => do
      let _ ← block? w q : Except Violation PUnit) = .ok ⟨⟩ :=
    forM_eq_ok _ fun q _ => by rw [block?_eq ho]; rfl
  rw [visibleFaces, handle?_eq ho]
  cases hh : w.handle? p.parent with
  | none =>
    rw [World.visibleFaces, hh]
    rfl
  | some h =>
    change (if _ then _ else _) = _
    split
    · rw [hneighbours]
      rfl
    · rfl

end Looking

section Editing

variable {w : World}

/-- A megachunk takes a chunk of its own at a free place. -/
theorem create_of_free {m : Megachunk} {c : Coord} (hc : m.coord = c.parent)
    (hl : m.handle? c.place = none) (a : Arena) : ∃ made, m.create a c = .ok made := by
  rw [Megachunk.create, if_neg (not_not_intro hc.symm), hl]
  exact ⟨_, rfl⟩

theorem ensureChunk_eq (ho : w.Owned) (c : Coord) : ensureChunk w c = .ok (w.ensureChunk c) := by
  rw [ensureChunk, handle?_eq ho]
  cases hh : w.handle? c with
  | some h =>
    rw [World.ensureChunk_of_some hh]
    rfl
  | none =>
    have ho' := ho.ensureMegachunk c.parent
    have hm := World.table_ensureMegachunk_self w c.parent
    have hget : (w.ensureMegachunk c.parent).megachunks[c.parent]?
        = some ((w.table c.parent).getD (.empty c.parent)) := hm
    obtain ⟨made, hmade⟩ := create_of_free (ho'.keyed _ _ hm)
      (World.place_free_of_handle?_none hh) (w.ensureMegachunk c.parent).arena
    obtain ⟨d, hslot⟩ : ∃ d, slot ((w.ensureMegachunk c.parent).createChunk c).2.arena
        ((w.ensureMegachunk c.parent).createChunk c).1 = .ok d := by
      exact ⟨_, slot_eq ho'.sound.allocate.isAllocated_self⟩
    simp only [ok_bind, hget, Option.getD_some, hmade, hslot, World.ensureChunk_of_none hh]
    rfl

theorem forgetFaces_eq (ho : w.Owned) (p : Coord) : forgetFaces w p = .ok (w.forgetFaces p) := by
  rw [forgetFaces, handle?_eq ho]
  rfl

theorem refresh_eq (ho : w.Owned) (p : Coord) : refresh w p = .ok (w.refresh p) :=
  foldlM_eq_ok (P := World.Owned) _ (fun _ hu q _ => forgetFaces_eq hu q)
    (fun u hu q _ => (World.edits_forgetFaces u q).owned hu) ho

theorem setBlock_eq (ho : w.Owned) (p : Coord) (id : BlockId) :
    setBlock w p id = .ok (w.setBlock p id) := by
  rw [setBlock, ensureChunk_eq ho]
  refine refresh_eq ?_ p
  exact World.Owned.modifySlot_of_handle? (ho.ensureChunk p.parent)
    (w.handle?_ensureChunk p.parent) _

theorem damageBlock_eq (ho : w.Owned) (r : Registry) (p : Coord) (amount : Float32) :
    damageBlock r w p amount = .ok (w.damageBlock r p amount).2 := by
  rw [damageBlock, block?_eq ho, ok_bind]
  cases hstrike : World.strike r (w.block? p) amount with
  | none =>
    rw [World.damageBlock, hstrike]
    rfl
  | broken =>
    dsimp only
    rw [setBlock_eq ho, World.damageBlock, hstrike]
    rfl
  | damaged damage =>
    dsimp only
    rw [handle?_eq ho, ok_bind]
    cases hh : w.handle? p.parent with
    | none =>
      -- A block that was seen lies in a chunk.
      have hnone : w.block? p = none := by
        rw [World.block?_eq_chunk?, ho.handle?_eq_none.mp hh]
        rfl
      rw [hnone] at hstrike
      cases hstrike
    | some h => rfl

theorem mark_eq (ho : w.Owned) (c : Coord) (f : ChunkData → ChunkData) :
    mark w c f = .ok ((w.ensureChunk c).2.modifySlot (w.ensureChunk c).1 f) := by
  rw [mark, ensureChunk_eq ho]
  rfl

theorem unload_eq (ho : w.Owned) (mega : Coord) : unload w mega = .ok (w.unload mega).2 := by
  rw [unload]
  cases hm : w.megachunks[mega]? with
  | none =>
    rw [World.unload_of_none hm]
    rfl
  | some m =>
    have htable : w.table mega = some m := hm
    obtain ⟨hnodup, hused⟩ := Ownership.handles_of ho htable
    have hbad := (Megachunk.freeAll_spec _ w.arena ho.sound hnodup hused).1
    have hrelease : (m.release w.arena).2.2 = [] := by
      simp only [Megachunk.release]
      exact hbad
    dsimp only
    rw [hrelease]
    rfl

end Editing

section Saving

variable {w : World}

/-- Records fit as long as there is room for all of them. -/
theorem appendRecords_eq (a : Arena) (room : Nat) (l : List (Local × Nat))
    (hused : ∀ e ∈ l, a.isAllocated e.2 = true) (out : ByteArray)
    (hroom : out.size + l.length * Megachunk.recordSize ≤ room) :
    l.foldlM (appendRecord a room) out
      = .ok ((l.map fun e => (e.1, a.slot e.2)).foldl Megachunk.appendRecord out) := by
  induction l generalizing out with
  | nil => rfl
  | cons e l ih =>
    rw [List.length_cons, Nat.succ_mul] at hroom
    rw [List.foldlM_cons, appendRecord, slot_eq (hused e List.mem_cons_self), ok_bind,
      if_pos (by omega)]
    refine ih (fun e he => hused e (List.mem_cons_of_mem _ he)) _ ?_
    rw [Megachunk.size_appendRecord]
    omega

/-- A megachunk that counts its chunks, all of which are in use, is written without a test failing. -/
theorem encode_eq {m : Megachunk} {a : Arena} (hcount : m.count = m.occupied.length)
    (hused : ∀ e ∈ m.occupied, a.isAllocated e.2 = true) : encode m a = .ok (m.encode a) := by
  unfold encode
  cases hheader : Megachunk.encodeHeader m.coord with
  | error e =>
    rw [Megachunk.encode_of_error hheader]
    rfl
  | ok header =>
    have hrecords := appendRecords_eq a (Megachunk.headerSize + m.count * Megachunk.recordSize)
      m.occupied hused
      (Megachunk.start header (Megachunk.headerSize + m.count * Megachunk.recordSize))
      (by rw [Megachunk.size_start hheader, hcount])
    have hchunks : m.chunks a = m.occupied.map fun e => (e.1, a.slot e.2) := rfl
    rw [Megachunk.encode_of_ok hheader, hchunks]
    simp only [hrecords, ok_bind]
    exact rfl

/-- The megachunks of a world are written without a test failing. -/
theorem encode_of_table (ho : w.Owned) {c : Coord} {m : Megachunk} (hm : w.table c = some m) :
    encode m w.arena = .ok (m.encode w.arena) := by
  refine encode_eq (ho.counted c m hm) fun e he => ?_
  exact (Ownership.handles_of ho hm).2 e.2 (List.mem_map.mpr ⟨e, he, rfl⟩)

theorem save_eq (ho : w.Owned) (savedAt : Data.Timestamp) (archive : MemoryArchive) :
    save w savedAt archive = .ok (w.saveTo savedAt MemoryArchive.sink archive).2.2 := by
  have hencode : ∀ c, encode ((w.megachunks[c]?).getD (.empty c)) w.arena
      = .ok (((w.megachunks[c]?).getD (.empty c)).encode w.arena) := by
    intro c
    cases hm : w.megachunks[c]? with
    | some m => exact encode_of_table ho hm
    | none =>
      refine encode_eq ?_ ?_
      · rw [Option.getD_none, Megachunk.occupied_empty]
        rfl
      · rw [Option.getD_none, Megachunk.occupied_empty]
        exact fun e he => absurd he List.not_mem_nil
  rw [save, forM_eq_ok w.coords fun c _ => by rw [hencode]; rfl]
  rfl

/-! A chunk that is loaded goes into a slot that the arena has just handed out, so that all that
matters is that the arena stays sound. -/

theorem sound_placeRecord {a : Arena} (hs : a.Sound) (data : ByteArray) (m : Megachunk)
    (r : Megachunk.Record) : (Megachunk.placeRecord data (m, a) r).2.Sound :=
  hs.allocate.sound.modify hs.allocate.isAllocated_self _

theorem placeRecord_eq {a : Arena} (hs : a.Sound) (data : ByteArray) (m : Megachunk)
    (r : Megachunk.Record) :
    placeRecord data (m, a) r = .ok (Megachunk.placeRecord data (m, a) r) := by
  rw [placeRecord, slot_eq hs.allocate.isAllocated_self]
  rfl

theorem sound_place {w : World} (hs : w.arena.Sound) (p : World.ParsedMegachunk) :
    (w.place p).arena.Sound := by
  have hfold : ∀ (records : List Megachunk.Record) (s : Megachunk × Arena), s.2.Sound →
      (records.foldl (Megachunk.placeRecord p.data) s).2.Sound := by
    intro records
    induction records with
    | nil => exact fun _ hs => hs
    | cons r records ih => exact fun s hs => ih _ (sound_placeRecord hs p.data s.1 r)
  exact hfold p.records (.empty p.coord, w.arena) hs

theorem place_eq (hs : w.arena.Sound) (p : World.ParsedMegachunk) :
    place w p = .ok (w.place p) := by
  have hrecords := foldlM_eq_ok (P := fun s : Megachunk × Arena => s.2.Sound)
    (f := placeRecord p.data) (g := Megachunk.placeRecord p.data) p.records
    (fun s hs r _ => placeRecord_eq hs p.data s.1 r)
    (fun s hs r _ => sound_placeRecord hs p.data s.1 r) (s := (.empty p.coord, w.arena)) hs
  rw [place, hrecords]
  rfl

theorem load_eq (ho : w.Owned) (source : Source) : load w source = .ok (w.loadFrom source).2 := by
  rw [load]
  cases World.parseSave source with
  | error e => rfl
  | ok save =>
    have hplace := foldlM_eq_ok (P := fun u : World => u.arena.Sound) (f := place)
      (g := World.place) save.megachunks (fun _ hs p _ => place_eq hs p)
      (fun _ hs p _ => sound_place hs p) (s := w.cleared) ho.cleared.sound
    dsimp only
    rw [hplace]
    rfl

end Saving

section Moves

variable {w : World}

theorem generateChunk_eq (ho : w.Owned) (g : Terrain.Landscape) (chunk : Coord) :
    generateChunk g chunk w = .ok (Terrain.generateChunk .world g chunk w).1 := by
  rw [generateChunk, handle?_eq ho, ok_bind, World.generateChunk_world]
  split
  · rfl
  · have hwrites := foldlM_eq_ok (P := World.Owned)
      (f := fun w (e : Terrain.Write) => setBlock w e.1 e.2)
      (g := fun w (e : Terrain.Write) => w.setBlock e.1 e.2) (g.chunkWrites chunk)
      (fun _ hu e _ => setBlock_eq hu e.1 e.2)
      (fun u hu e _ => (World.edits_setBlock u e.1 e.2).owned hu) ho
    have hfilled := (World.edits_foldl (f := fun w (e : Terrain.Write) => w.setBlock e.1 e.2)
      (fun u e => World.edits_setBlock u e.1 e.2) (g.chunkWrites chunk) w).owned ho
    rw [hwrites, ok_bind, mark_eq hfilled]
    rfl

theorem ask_eq (ho : w.Owned) (q : Question) : ask q w = .ok (q.apply w) := by
  cases q with
  | refresh p => exact refresh_eq ho p
  | visibleFaces r p => exact visibleFaces_eq ho r p
  | block? p =>
    rw [ask, block?_eq ho]
    rfl
  | chunk? c =>
    rw [ask, handle?_eq ho]
    rfl
  | raycast origin direction length before =>
    rw [ask, firstHit_eq ho]
    rfl
  | collide box =>
    rw [ask, escape_eq ho]
    rfl

theorem act_eq (ho : w.Owned) (a : Action) : act a w = .ok (a.apply w) := by
  cases a with
  | setBlock p id => exact setBlock_eq ho p id
  | damageBlock r p amount => exact damageBlock_eq ho r p amount
  | markChunk c priority => exact mark_eq ho c _
  | markGenerated c => exact mark_eq ho c _
  | advanceTick => rfl
  | reset => rfl
  | unload mega => exact unload_eq ho mega
  | ask q => exact ask_eq ho q

/-- No test of a move fails where handles are owned. -/
theorem move_eq (ho : w.Owned) (m : Move) : move m w = .ok (m.apply w) := by
  cases m with
  | act a => exact act_eq ho a
  | markCached c =>
    rw [move, handle?_eq ho]
    rfl
  | save savedAt archive => exact save_eq ho savedAt archive
  | load source => exact load_eq ho source
  | generateChunk g chunk => exact generateChunk_eq ho g chunk
  | generateSpawn g radius =>
    rw [move, Move.apply, Terrain.generateSpawn, World.generateChunks_world]
    exact foldlM_eq_ok (P := World.Owned) _ (fun _ hu c _ => generateChunk_eq hu g c)
      (fun u hu c _ => (World.edits_generateChunk g c u).owned hu) ho

end Moves

end Checked

end BlockWorld
