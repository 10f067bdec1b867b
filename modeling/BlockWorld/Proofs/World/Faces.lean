import BlockWorld.Proofs.Faces
import BlockWorld.Proofs.World.Blocks
import BlockWorld.Proofs.World.Invariant
/-!
Remembered faces stay true. A world answers with the mask that it remembers (`visibleFaces_fst`), so
the answer is right as long as every remembered mask is the one that would be computed afresh
(`FacesTrue`). A fresh mask depends on the types at a position and at its six neighbours. Whatever
changes a type forgets the masks of just these positions, in whichever chunk they lie, and no other
move touches types at all.

How the proof goes. `FacesTrue.of_kept` is the step that all moves share: masks stay true if each that is
still remembered was remembered before and sees the same types as before. For a write the masks at the
position and at its neighbours are forgotten, and every other position has the written one neither at itself
nor next to it, because being a neighbour is symmetric (`mem_surroundings_comm`). Asking for faces fills one
mask in, which is a fresh one (`visibleFaces_fst`). The other moves change no type. A chunk computes its masks
from its own cells and asks the world for those outside, and `neighbour?_eq_kind?` says that this is the
neighbour on the grid of blocks. The run is by induction on the moves (`FacesTrue.run`), for moves that unload
nothing and ask with one registry (`Move.FaithfulTo`).
-/
namespace BlockWorld

open Grid Block

namespace World

/-- The type of the block at a position. -/
def kind? (w : World) (p : Coord) : Option BlockId := (w.block? p).map (·.kind)

/-- The visible faces at a position, computed from the blocks there and around it. -/
def freshFaces (r : Registry) (w : World) (p : Coord) : FaceMask :=
  match w.kind? p with
  | none => .unknown
  | some id => .ofTest fun f => Chunk.faceExposed r id (w.kind? (p + f.offset))

variable {r : Registry} {w w' : World}

/-! ## Surroundings -/

theorem mem_surroundings {p q : Coord} :
    q ∈ surroundings p ↔ q = p ∨ ∃ f : Face, q = p + f.offset := by
  simp only [surroundings, List.mem_cons, List.mem_map]
  constructor
  · rintro (hq | ⟨f, -, hf⟩)
    · exact .inl hq
    · exact .inr ⟨f, hf.symm⟩
  · rintro (hq | ⟨f, hf⟩)
    · exact .inl hq
    · exact .inr ⟨f, f.mem_all, hf.symm⟩

theorem mem_surroundings_comm {p q : Coord} : q ∈ surroundings p ↔ p ∈ surroundings q := by
  have hback : ∀ {p q : Coord}, q ∈ surroundings p → p ∈ surroundings q := by
    intro p q hq
    rw [mem_surroundings] at hq ⊢
    obtain rfl | ⟨f, rfl⟩ := hq
    · exact .inl rfl
    · exact .inr ⟨f.opposite, (p.add_offset_opposite f).symm⟩
  exact ⟨hback, hback⟩

/-- A fresh mask depends on the types of the surroundings only. -/
theorem freshFaces_congr {p : Coord} (h : ∀ q ∈ surroundings p, w'.kind? q = w.kind? q) :
    w'.freshFaces r p = w.freshFaces r p := by
  have hself := h p (mem_surroundings.mpr (.inl rfl))
  have hnext : ∀ f : Face, w'.kind? (p + f.offset) = w.kind? (p + f.offset) :=
    fun f => h _ (mem_surroundings.mpr (.inr ⟨f, rfl⟩))
  simp only [freshFaces, hself, hnext]

theorem freshFaces_of_none {p : Coord} (hb : w.block? p = none) :
    w.freshFaces r p = .unknown := by
  simp [freshFaces, kind?, hb]

theorem freshFaces_of_some {p : Coord} {b : Cell} (hb : w.block? p = some b) :
    w.freshFaces r p
      = .ofTest fun f => Chunk.faceExposed r b.kind (w.kind? (p + f.offset)) := by
  simp [freshFaces, kind?, hb]

/-! ## Asking for faces -/

/-- The neighbour that a chunk finds in itself or outside is the one on the grid of blocks. -/
theorem neighbour?_eq_kind? {p : Coord} {d : ChunkData} (hd : w.chunk? p.parent = some d)
    (f : Face) :
    d.chunk.neighbour? p.place.toCoord (p.parent.scale edge) w.kind? f
      = w.kind? (p + f.offset) := by
  have hstep : p.parent.scale edge + (p.place.toCoord + f.offset) = p + f.offset := by
    rw [← Coord.add_assoc, Coord.scale_parent_add_place]
  unfold Chunk.neighbour? Coord.local?
  by_cases hn : (p.place.toCoord + f.offset).isLocal = true
  · -- Neighbours inside the cube have the chunk of `p` as theirs.
    have hparent : (p + f.offset).parent = p.parent := by
      rw [← hstep, Coord.parent_scale_add _ hn, p.parent_scale_parent]
    have hplace : (p + f.offset).place = (p.place.toCoord + f.offset).place := by
      rw [← hstep, Coord.place_scale_add _ hn]
    simp only [hn, if_true, kind?, block?_eq_chunk?, hparent, hplace, hd, Option.bind_some]
  · simp only [hn, hstep]
    rfl

theorem freshMask_eq_freshFaces {p : Coord} {d : ChunkData} {b : Cell}
    (hd : w.chunk? p.parent = some d) (hb : w.block? p = some b) :
    d.chunk.freshMask r p.place b.kind (p.parent.scale edge) w.kind? = w.freshFaces r p := by
  rw [freshFaces_of_some hb]
  simp only [Chunk.freshMask, neighbour?_eq_kind? hd]

/-- In a chunk that is there the chunk is asked. -/
theorem visibleFaces_of_handle? {p : Coord} {h : Nat} (hh : w.handle? p.parent = some h) :
    w.visibleFaces r p
      = (((w.arena.slot h).chunk.visibleFaces r p.place (p.parent.scale edge) w.kind?).1,
        w.modifySlot h fun d => { d with chunk :=
          ((w.arena.slot h).chunk.visibleFaces r p.place (p.parent.scale edge) w.kind?).2 }) := by
  rw [visibleFaces, hh]
  rfl

/-- A world answers with the mask that it remembers, or else with a fresh one. -/
theorem visibleFaces_fst (ho : w.Owned) (p : Coord) :
    (w.visibleFaces r p).1
      = (w.block? p).elim .unknown fun b =>
          if b.faces.isValid then b.faces.visible else w.freshFaces r p := by
  cases hh : w.handle? p.parent with
  | none =>
    have hnone : w.block? p = none := by
      simp [block?_eq_chunk?, ho.chunk?_eq, hh]
    simp [visibleFaces, hh, hnone]
  | some h =>
    have hd := ho.chunk?_of_handle? hh
    have hblock : w.block? p = (w.arena.slot h).chunk.block? p.place := by
      simp [block?_eq_chunk?, hd]
    rw [visibleFaces_of_handle? hh, hblock]
    cases hb : (w.arena.slot h).chunk.block? p.place with
    | none => simp [Chunk.visibleFaces_of_none, hb]
    | some b =>
      cases hv : b.faces.isValid with
      | true => simp [Chunk.visibleFaces_of_valid r _ _ _ _ hb hv, hv]
      | false =>
        have hfresh := freshMask_eq_freshFaces (r := r) hd (hblock.trans hb)
        simp [Chunk.visibleFaces_of_unknown r _ _ _ _ hb hv, hv, hfresh]

/-- The question is remembered at its position, and no type changes. -/
theorem block?_visibleFaces (ho : w.Owned) (p q : Coord) :
    (w.visibleFaces r p).2.block? q
      = if q = p then (w.block? p).map (Cell.remember (w.freshFaces r p)) else w.block? q := by
  cases hh : w.handle? p.parent with
  | none =>
    have hnone : w.block? p = none := by
      simp [block?_eq_chunk?, ho.chunk?_eq, hh]
    have hsame : (w.visibleFaces r p).2 = w := by
      rw [visibleFaces, hh]
    rw [hsame, hnone]
    split
    · rename_i hq
      rw [hq, hnone, Option.map_none]
    · rfl
  | some h =>
    have hd := ho.chunk?_of_handle? hh
    rw [visibleFaces_of_handle? hh]
    refine block?_modifySlot ho hh (g := Option.map (Cell.remember (w.freshFaces r p))) ?_ q
    intro l
    refine (Chunk.block?_visibleFaces r _ p.place _ _ l).trans ?_
    split
    · rename_i hl
      subst hl
      refine Option.map_congr fun b hb => ?_
      have hblock : w.block? p = some b := by
        simp [block?_eq_chunk?, hd, hb]
      rw [freshMask_eq_freshFaces hd hblock]
    · rfl

theorem kind?_visibleFaces (ho : w.Owned) (p q : Coord) :
    (w.visibleFaces r p).2.kind? q = w.kind? q := by
  simp only [kind?, block?_visibleFaces ho]
  split
  · rename_i hq
    simp [hq, Function.comp_def, Cell.kind_remember]
  · rfl

theorem kind?_setBlock (ho : w.Owned) (p : Coord) (id : BlockId) (q : Coord) :
    (w.setBlock p id).kind? q
      = if q = p then if id = air then none else some id else w.kind? q := by
  simp only [kind?, block?_setBlock ho]
  by_cases hq : q = p
  · by_cases hid : id = air <;> simp [hq, hid, Cell.solid?, Cell.isAir, Cell.fresh]
  · simp only [hq, if_false]
    split <;> simp [Function.comp_def]

/-! ## True masks -/

/-- Every mask that is remembered is the one that would be computed afresh. -/
def FacesTrue (r : Registry) (w : World) : Prop :=
  ∀ p b, w.block? p = some b → b.faces.isValid = true → b.faces.visible = w.freshFaces r p

theorem FacesTrue.visibleFaces_eq (ht : w.FacesTrue r) (ho : w.Owned) (p : Coord) :
    (w.visibleFaces r p).1 = w.freshFaces r p := by
  rw [visibleFaces_fst ho]
  cases hb : w.block? p with
  | none => simp [freshFaces_of_none hb]
  | some b =>
    by_cases hv : b.faces.isValid = true
    · simp [hv, ht p b hb hv]
    · simp [hv]

/-- Where no mask is remembered, none is wrong. -/
theorem FacesTrue.of_unknown (h : ∀ p b, w.block? p = some b → b.faces.isValid = false) :
    w.FacesTrue r := by
  intro p b hb hv
  rw [h p b hb] at hv
  cases hv

/-- Masks stay true if each that is still remembered was so before, and sees the same types. -/
theorem FacesTrue.of_kept (ht : w.FacesTrue r)
    (hkept : ∀ p b', w'.block? p = some b' → b'.faces.isValid = true →
      (∃ b, w.block? p = some b ∧ b.faces = b'.faces)
        ∧ ∀ q ∈ surroundings p, w'.kind? q = w.kind? q) : w'.FacesTrue r := by
  intro p b' hb' hv
  obtain ⟨⟨b, hb, hfaces⟩, hkinds⟩ := hkept p b' hb' hv
  rw [freshFaces_congr hkinds, ← hfaces]
  exact ht p b hb (hfaces ▸ hv)

theorem FacesTrue.of_block?_eq (ht : w.FacesTrue r) (h : ∀ q, w'.block? q = w.block? q) :
    w'.FacesTrue r := by
  refine ht.of_kept fun p b' hb' _ => ⟨⟨b', (h p).symm.trans hb', rfl⟩, fun q _ => ?_⟩
  simp [kind?, h]

section Keeping

variable (ho : w.Owned) (ht : w.FacesTrue r)
include ho ht

theorem FacesTrue.refresh (p : Coord) : (w.refresh p).FacesTrue r := by
  have hblock := block?_refresh ho p
  refine ht.of_kept fun q b' hb' hv => ⟨?_, fun q' _ => ?_⟩
  · rw [hblock] at hb'
    split at hb'
    · obtain ⟨b, -, rfl⟩ := Option.map_eq_some_iff.mp hb'
      simp at hv
    · exact ⟨b', hb', rfl⟩
  · simp only [kind?, hblock]
    split <;> simp [Function.comp_def]

/-- The masks that a write leaves are those of positions which do not see the written one. -/
theorem FacesTrue.setBlock (p : Coord) (id : BlockId) : (w.setBlock p id).FacesTrue r := by
  have hblock := block?_setBlock ho p id
  refine ht.of_kept fun q b' hb' hv => ?_
  by_cases hq : q ∈ surroundings p
  · -- Here the mask is unknown after the write.
    exfalso
    rw [hblock] at hb'
    split at hb'
    · unfold Cell.solid? at hb'
      split at hb'
      · cases hb'
      · obtain rfl := Option.some.inj hb'
        simp at hv
    · obtain ⟨b, -, rfl⟩ := Option.map_eq_some_iff.mp hb'
      simp at hv
  · refine ⟨⟨b', ?_, rfl⟩, fun q' hq' => ?_⟩
    · have hqp : q ≠ p := by
        rintro rfl
        exact hq (mem_surroundings.mpr (.inl rfl))
      rw [hblock, if_neg hqp, if_neg hq] at hb'
      exact hb'
    · have hqp : q' ≠ p := by
        rintro rfl
        exact hq (mem_surroundings_comm.mp hq')
      rw [kind?_setBlock ho, if_neg hqp]

theorem FacesTrue.damageBlock (r' : Registry) (p : Coord) (amount : Float32) :
    (w.damageBlock r' p amount).2.FacesTrue r := by
  obtain hbroken | ⟨f, hf, hblock⟩ := block?_damageBlock ho r' p amount
  · exact (ht.setBlock ho p air).of_block?_eq hbroken
  · refine ht.of_kept fun q b' hb' _ => ⟨?_, fun q' _ => ?_⟩
    · rw [hblock] at hb'
      split at hb'
      · rename_i hq
        obtain ⟨b, hb, rfl⟩ := Option.map_eq_some_iff.mp hb'
        exact ⟨b, hq ▸ hb, (hf b).2.symm⟩
      · exact ⟨b', hb', rfl⟩
    · simp only [kind?, hblock]
      split
      · rename_i hq
        simp [hq, Function.comp_def, hf]
      · rfl

/-- A mask that is filled in is a fresh one, and the types around it stay. -/
theorem FacesTrue.visibleFaces (p : Coord) : (w.visibleFaces r p).2.FacesTrue r := by
  intro q b' hb' hv
  rw [freshFaces_congr fun q' _ => kind?_visibleFaces ho p q']
  rw [block?_visibleFaces ho] at hb'
  split at hb'
  · rename_i hq
    obtain ⟨b, hb, rfl⟩ := Option.map_eq_some_iff.mp hb'
    subst hq
    unfold Cell.remember at hv ⊢
    split
    · rename_i hvalid
      exact ht q b hb hvalid
    · simp [freshFaces_of_some hb]
  · exact ht q b' hb' hv

theorem FacesTrue.loadFrom (source : Save.Source) : (w.loadFrom source).2.FacesTrue r := by
  cases h : parseSave source with
  | error e => exact ht.of_block?_eq (loadFrom_of_error w h).2.storage.block?_eq
  | ok save =>
    refine .of_unknown fun p b hb => ?_
    rw [block?_eq_chunk?, Option.bind_eq_some_iff] at hb
    obtain ⟨d, hd, hb⟩ := hb
    obtain ⟨rfl, -⟩ := Chunk.cell_of_block? hb
    simp [(pristine_loadFrom ho h hd).faces]

theorem FacesTrue.ask (q : Question) (hq : ∀ r' p, q = .visibleFaces r' p → r' = r) :
    (q.apply w).FacesTrue r := by
  cases q with
  | refresh p => exact ht.refresh ho p
  | visibleFaces r' p =>
    obtain rfl := hq r' p rfl
    exact ht.visibleFaces ho p
  | block? p => exact ht
  | chunk? c => exact ht
  | raycast origin direction length before =>
    simp only [Question.apply, raycast]
    split
    · exact ht
    · exact ht.of_block?_eq (SameStorage.block?_eq ⟨rfl, rfl⟩)
  | collide box => exact ht.of_block?_eq (SameStorage.block?_eq ⟨rfl, rfl⟩)

end Keeping

theorem FacesTrue.saveTo {σ : Type} (ht : w.FacesTrue r) (savedAt : Data.Timestamp)
    (sink : Save.Sink σ) (s : σ) : (w.saveTo savedAt sink s).2.2.FacesTrue r := by
  rw [World.saveTo]
  split <;> exact ht.of_block?_eq (SameStorage.block?_eq ⟨rfl, rfl⟩)

/-- What keeps masks true one at a time keeps them true one after the other. -/
theorem FacesTrue.foldl {α : Type} {f : World → α → World}
    (hf : ∀ u a, u.Owned → u.FacesTrue r → (f u a).Owned ∧ (f u a).FacesTrue r) (l : List α)
    (ho : w.Owned) (ht : w.FacesTrue r) :
    (l.foldl f w).Owned ∧ (l.foldl f w).FacesTrue r := by
  induction l generalizing w with
  | nil => exact ⟨ho, ht⟩
  | cons a l ih =>
    obtain ⟨ho', ht'⟩ := hf w a ho ht
    exact ih ho' ht'

theorem FacesTrue.generateChunk (ho : w.Owned) (ht : w.FacesTrue r) (g : Terrain.Landscape)
    (c : Coord) : (Terrain.generateChunk .world g c w).1.FacesTrue r := by
  rw [generateChunk_world]
  split
  · exact ht
  · have hstep : ∀ (u : World) (write : Terrain.Write), u.Owned → u.FacesTrue r →
        (u.setBlock write.1 write.2).Owned ∧ (u.setBlock write.1 write.2).FacesTrue r := by
      intro u write hu htu
      exact ⟨(edits_setBlock u write.1 write.2).owned hu, htu.setBlock hu write.1 write.2⟩
    obtain ⟨ho', ht'⟩ := ht.foldl hstep (g.chunkWrites c) ho
    exact ht'.of_block?_eq (block?_markGenerated ho' c)

theorem FacesTrue.generateSpawn (ho : w.Owned) (ht : w.FacesTrue r) (g : Terrain.Landscape)
    (radius : Int64) : (Terrain.generateSpawn .world g radius w).target.FacesTrue r := by
  rw [Terrain.generateSpawn, generateChunks_world]
  exact (ht.foldl
    (fun u c hu htu => ⟨(edits_generateChunk g c u).owned hu, htu.generateChunk hu g c⟩) _ ho).2

end World

/-! ## Runs -/

/-- Moves that ask for faces with one registry only and that unload nothing. -/
def Move.FaithfulTo (r : Registry) : Move → Prop
  | .act (.unload _) => False
  | .act (.ask (.visibleFaces r' _)) => r' = r
  | _ => True

namespace World

variable {r : Registry} {w : World}

theorem FacesTrue.apply (ho : w.Owned) (ht : w.FacesTrue r) {m : Move} (hm : m.FaithfulTo r) :
    (m.apply w).FacesTrue r := by
  cases m with
  | act a =>
    cases a with
    | setBlock p id => exact ht.setBlock ho p id
    | damageBlock r' p amount => exact ht.damageBlock ho r' p amount
    | markChunk c priority => exact ht.of_block?_eq (block?_markChunk ho c priority)
    | markGenerated c => exact ht.of_block?_eq (block?_markGenerated ho c)
    | advanceTick => exact ht.of_block?_eq (SameStorage.block?_eq ⟨rfl, rfl⟩)
    | reset =>
      refine .of_unknown fun p b hb => ?_
      rw [Move.apply, Action.apply, block?_reset] at hb
      cases hb
    | unload c => exact hm.elim
    | ask q =>
      refine ht.ask ho q fun r' p hq => ?_
      rw [hq] at hm
      exact hm
  | markCached c => exact ht.of_block?_eq (block?_markCached ho c)
  | save savedAt archive => exact ht.saveTo savedAt _ archive
  | load source => exact ht.loadFrom ho source
  | generateChunk g c => exact ht.generateChunk ho g c
  | generateSpawn g radius => exact ht.generateSpawn ho g radius

theorem FacesTrue.run (ho : w.Owned) (ht : w.FacesTrue r) {moves : List Move}
    (hm : ∀ m ∈ moves, m.FaithfulTo r) : (Move.run moves w).FacesTrue r := by
  induction moves generalizing w with
  | nil => exact ht
  | cons m moves ih =>
    have hfirst := ht.apply ho (hm m List.mem_cons_self)
    exact ih (ho.run [m]) hfirst fun m' hm' => hm m' (List.mem_cons_of_mem m hm')

theorem facesTrue_new (r : Registry) (seed : Int64) (id : String) (createdAt : Data.Timestamp)
    (compression : String) : (new seed id createdAt compression).FacesTrue r := by
  refine .of_unknown fun p b hb => ?_
  rw [block?_new] at hb
  cases hb

/-- A face shows if nothing is behind it, or something else that can be seen through. -/
theorem faceExposed_iff (p : Coord) (id : BlockId) :
    Chunk.faceExposed r id (w.kind? p) = true
      ↔ w.block? p = none
        ∨ ∃ b, w.block? p = some b ∧ r.isTransparent b.kind = true ∧ b.kind ≠ id := by
  cases hb : w.block? p with
  | none => simp [Chunk.faceExposed, kind?, hb]
  | some b => simp [Chunk.faceExposed, kind?, hb, and_comm]

/-- After any moves that ask for faces with one registry and unload nothing, the answer at every
position is empty for air; for a block it has just the faces behind which there is nothing, or a
transparent block of another type. A mask that is remembered says the same. -/
theorem run_new_visibleFaces (r : Registry) (seed : Int64) (id : String)
    (createdAt : Data.Timestamp) (compression : String) (moves : List Move)
    (hm : ∀ m ∈ moves, m.FaithfulTo r) (p : Coord) :
    let w := Move.run moves (.new seed id createdAt compression)
    (w.block? p = none → (w.visibleFaces r p).1 = ⟨0⟩)
      ∧ (∀ b, w.block? p = some b →
          (w.visibleFaces r p).1 = (w.visibleFaces r p).1.visible
          ∧ (b.faces.isValid = true → b.faces.visible = (w.visibleFaces r p).1)
          ∧ ∀ f : Face, (w.visibleFaces r p).1.has f = true
            ↔ w.block? (p + f.offset) = none
              ∨ ∃ n, w.block? (p + f.offset) = some n
                ∧ r.isTransparent n.kind = true ∧ n.kind ≠ b.kind) := by
  intro w
  have hnew := owned_new seed id createdAt compression
  have ho : w.Owned := hnew.run moves
  have ht : w.FacesTrue r := (facesTrue_new r seed id createdAt compression).run hnew hm
  have hanswer := ht.visibleFaces_eq ho p
  refine ⟨fun hb => hanswer.trans (freshFaces_of_none hb), fun b hb => ⟨?_, ?_, fun f => ?_⟩⟩
  · rw [hanswer, freshFaces_of_some hb, FaceMask.visible_ofTest]
  · intro hv
    rw [hanswer, ht p b hb hv]
  · rw [hanswer, freshFaces_of_some hb, FaceMask.has_ofTest, faceExposed_iff]

/-- A block at the end of the range forgets its mask when a neighbour is put at the other end. -/
theorem run_new_visibleFaces_wrap :
    (∀ m ∈ [Move.act (.setBlock ⟨Int64.maxValue, 0, 0⟩ stone),
        .act (.ask (.visibleFaces .builtin ⟨Int64.maxValue, 0, 0⟩)),
        .act (.setBlock ⟨Int64.minValue, 0, 0⟩ stone)], m.FaithfulTo .builtin)
      ∧ ((Move.run [.act (.setBlock ⟨Int64.maxValue, 0, 0⟩ stone),
          .act (.ask (.visibleFaces .builtin ⟨Int64.maxValue, 0, 0⟩)),
          .act (.setBlock ⟨Int64.minValue, 0, 0⟩ stone)] (.new 1 "" .zero "")).visibleFaces
        .builtin ⟨Int64.maxValue, 0, 0⟩).1.has .posX = false := by
  generalize hp : (⟨Int64.maxValue, 0, 0⟩ : Coord) = p
  generalize hq : (⟨Int64.minValue, 0, 0⟩ : Coord) = q
  generalize hmoves : [Move.act (.setBlock p stone), .act (.ask (.visibleFaces .builtin p)),
    .act (.setBlock q stone)] = moves
  have hfaithful : ∀ m ∈ moves, m.FaithfulTo .builtin := by
    simp [← hmoves, Move.FaithfulTo]
  refine ⟨hfaithful, ?_⟩
  have hface := (run_new_visibleFaces .builtin 1 "" .zero "" moves hfaithful p).2
  obtain ⟨w, hw, hwp, hwq⟩ : ∃ w, Move.run moves (.new 1 "" .zero "") = w
      ∧ w.kind? p = some stone ∧ w.kind? (p + Face.posX.offset) = some stone := by
    have hstone : stone ≠ air := by decide
    have hnew := owned_new 1 "" .zero ""
    have hset := (edits_setBlock _ p stone).owned hnew
    have hask := (edits_visibleFaces .builtin _ p).owned hset
    have hne : p ≠ q := by
      rw [← hp, ← hq]
      decide
    have hnext : p + Face.posX.offset = q := by
      rw [← hp, ← hq]
      decide
    refine ⟨_, rfl, ?_, ?_⟩
    · rw [← hmoves]
      simp [Move.run, Move.apply, Action.apply, Question.apply, kind?_setBlock hask,
        kind?_visibleFaces hset, kind?_setBlock hnew, hne, hstone]
    · rw [hnext, ← hmoves]
      simp [Move.run, Move.apply, Action.apply, Question.apply, kind?_setBlock hask, hstone]
  rw [hw] at hface ⊢
  obtain ⟨b, hb, hkind⟩ := Option.map_eq_some_iff.mp hwp
  obtain ⟨n, hn, hsame⟩ := Option.map_eq_some_iff.mp hwq
  rw [← Bool.not_eq_true, (hface b hb).2.2 .posX, hn]
  rintro (hnone | ⟨n', hn', -, hother⟩)
  · cases hnone
  · obtain rfl := Option.some.inj hn'
    exact hother (hsame.trans hkind.symm)

end World

end BlockWorld
