import BlockWorld.Proofs.World.Faces
/-!
Faces next to an unloaded megachunk. Unloading takes chunks away and leaves all others exactly as
they are, remembered masks and pictures included. A block at the border whose face was covered from
the removed side now shows it; but if the block remembered its mask, the old mask is still the answer
(`visibleFaces_unload`), until the block or something next to it is written. So remembered masks stay
true under writing, digging and loading, but not under unloading.

How the proof goes. Fresh masks are compared before and after: a face is uncovered by unloading exactly if it
was covered by a block of the removed megachunk, and a mask is known by its faces
(`freshFaces_unload_eq_iff`). The world answers with the remembered mask where there is one
(`visibleFaces_unload`), which was true before. So the answer is right afterwards if and only if no mask is
remembered or none of its faces was covered from the removed side (`visibleFaces_unload_eq_iff`). Two stones
on both sides of a border are the counterexample to saying more (`unload_leaves_stale_faces`).
-/
namespace BlockWorld

open Grid Block

theorem Grid.FaceMask.ofTest_inj {s t : Face → Bool} :
    ofTest s = ofTest t ↔ ∀ f, s f = t f := by
  constructor
  · intro h f
    rw [← has_ofTest s f, ← has_ofTest t f, h]
  · intro h
    rw [funext h]

namespace World

/-- Whether there is a block at a position that remembers its mask. -/
def remembersFaces (w : World) (p : Coord) : Bool := (w.block? p).any (·.faces.isValid)

/-- Whether a face of the block at a position is covered by a block of a megachunk. -/
def CoveredFrom (r : Registry) (w : World) (m p : Coord) : Prop :=
  ∃ b, w.block? p = some b ∧ ∃ f : Face,
    (p + f.offset).parent.parent = m ∧ Chunk.faceExposed r b.kind (w.kind? (p + f.offset)) = false

variable {r : Registry} {w : World} {m p : Coord}

section Unload

variable (ho : w.Owned)
include ho

theorem block?_unload_of_ne (hp : p.parent.parent ≠ m) : (w.unload m).2.block? p = w.block? p := by
  rw [block?_unload ho, if_neg hp]

theorem kind?_unload (q : Coord) :
    (w.unload m).2.kind? q = if q.parent.parent = m then none else w.kind? q := by
  simp only [kind?, block?_unload ho]
  split <;> rfl

/-- The faces that unloading uncovers are those that were covered from the removed megachunk. -/
theorem freshFaces_unload_eq_iff (hp : p.parent.parent ≠ m) :
    (w.unload m).2.freshFaces r p = w.freshFaces r p ↔ ¬ w.CoveredFrom r m p := by
  have hkept := block?_unload_of_ne ho hp
  cases hb : w.block? p with
  | none =>
    have hnot : ¬ w.CoveredFrom r m p := by
      rintro ⟨b, hb', -⟩
      rw [hb] at hb'
      cases hb'
    simp [freshFaces_of_none hb, freshFaces_of_none (hkept.trans hb), hnot]
  | some b =>
    rw [freshFaces_of_some hb, freshFaces_of_some (hkept.trans hb), FaceMask.ofTest_inj]
    constructor
    · rintro hsame ⟨b', hb', f, hf, hcovered⟩
      obtain rfl := Option.some.inj (hb.symm.trans hb')
      have hface := hsame f
      rw [kind?_unload ho, if_pos hf, hcovered] at hface
      cases hface
    · intro hnot f
      rw [kind?_unload ho]
      split
      · -- Nothing is behind the face any more; before, it was not covered either.
        rename_i hf
        cases hface : Chunk.faceExposed r b.kind (w.kind? (p + f.offset)) with
        | true => rfl
        | false => exact absurd ⟨b, hb, f, hf, hface⟩ hnot
      · rfl

/-- After unloading, a remembered mask is answered as it was. -/
theorem visibleFaces_unload (ht : w.FacesTrue r) (hp : p.parent.parent ≠ m) :
    ((w.unload m).2.visibleFaces r p).1
      = if w.remembersFaces p then w.freshFaces r p else (w.unload m).2.freshFaces r p := by
  have hkept := block?_unload_of_ne ho hp
  rw [visibleFaces_fst (ho.unload m), hkept]
  cases hb : w.block? p with
  | none => simp [remembersFaces, hb, freshFaces_of_none (hkept.trans hb)]
  | some b =>
    cases hv : b.faces.isValid with
    | true => simp [remembersFaces, hb, hv, ht p b hb hv]
    | false => simp [remembersFaces, hb, hv]

/-- The answer after unloading is right unless a mask is remembered that had a covered face. -/
theorem visibleFaces_unload_eq_iff (ht : w.FacesTrue r) (hp : p.parent.parent ≠ m) :
    ((w.unload m).2.visibleFaces r p).1 = (w.unload m).2.freshFaces r p
      ↔ ¬ (w.remembersFaces p = true ∧ w.CoveredFrom r m p) := by
  have hsame := freshFaces_unload_eq_iff (r := r) ho hp
  rw [visibleFaces_unload ho ht hp]
  cases w.remembersFaces p with
  | true => simp [← hsame, eq_comm]
  | false => simp

end Unload

/-! ## Two stones at a border -/

/-- A block whose faces have been asked for remembers them. -/
theorem remembersFaces_visibleFaces (ho : w.Owned) {id : BlockId} (hp : w.kind? p = some id) :
    (w.visibleFaces r p).2.remembersFaces p = true := by
  obtain ⟨b, hb, -⟩ := Option.map_eq_some_iff.mp hp
  rw [remembersFaces, block?_visibleFaces ho, if_pos rfl, hb]
  cases hv : b.faces.isValid with
  | true => simp [Cell.remember, hv]
  | false => simp [Cell.remember, hv, freshFaces_of_some hb]

theorem chunk?_markCached (ho : w.Owned) {c : Coord} {d : ChunkData} (hd : w.chunk? c = some d) :
    (w.markCached c).chunk? c = some { d with chunk := d.chunk.markCached } := by
  rw [ho.chunk?_eq, Option.map_eq_some_iff] at hd
  obtain ⟨h, hh, rfl⟩ := hd
  have hmark : w.markCached c
      = w.modifySlot h fun d => { d with chunk := d.chunk.markCached } := by
    rw [markCached, hh]
  rw [hmark, chunk?_modifySlot ho hh, if_pos rfl, ho.chunk?_of_handle? hh, Option.map_some]

theorem isSome_of_kind? {id : BlockId} (hp : w.kind? p = some id) :
    (w.chunk? p.parent).isSome = true ∧ (w.table p.parent.parent).isSome = true := by
  obtain ⟨b, hb, -⟩ := Option.map_eq_some_iff.mp hp
  rw [block?_eq_chunk?, Option.bind_eq_some_iff] at hb
  obtain ⟨d, hd, -⟩ := hb
  refine ⟨by rw [hd]; rfl, ?_⟩
  rw [chunk?_eq_chunkAt, chunkAt, Table.chunk, Table.handle] at hd
  cases hm : w.table p.parent.parent with
  | none => simp [hm] at hd
  | some m => rfl

/-- Stones on both sides of the border of a megachunk; the faces of the first have been asked for,
and its chunk has been drawn. -/
def borderStones : World :=
  Move.run [.act (.setBlock ⟨255, 0, 0⟩ stone), .act (.setBlock ⟨256, 0, 0⟩ stone),
    .act (.ask (.visibleFaces .builtin ⟨255, 0, 0⟩)), .markCached ⟨15, 0, 0⟩] (.new 1 "" .zero "")

theorem facesTrue_borderStones : borderStones.FacesTrue .builtin := by
  refine (facesTrue_new .builtin 1 "" .zero "").run (owned_new 1 "" .zero "") ?_
  simp [Move.FaithfulTo]

theorem owned_borderStones : borderStones.Owned := (owned_new 1 "" .zero "").run _

/-- The picture is up to date, the mask is remembered, and the second stone covers a face. -/
theorem borderStones_covered :
    (borderStones.table ⟨1, 0, 0⟩).isSome = true
      ∧ (borderStones.chunk? ⟨15, 0, 0⟩).map (·.chunk.cached) = some true
      ∧ borderStones.remembersFaces ⟨255, 0, 0⟩ = true
      ∧ borderStones.CoveredFrom .builtin ⟨1, 0, 0⟩ ⟨255, 0, 0⟩ := by
  obtain ⟨u, hu, hscene, hfirst, hsecond⟩ : ∃ u : World, u.Owned
      ∧ borderStones = (u.visibleFaces .builtin ⟨255, 0, 0⟩).2.markCached ⟨15, 0, 0⟩
      ∧ u.kind? ⟨255, 0, 0⟩ = some stone ∧ u.kind? ⟨256, 0, 0⟩ = some stone := by
    have hnew := owned_new 1 "" .zero ""
    have hone := (edits_setBlock _ ⟨255, 0, 0⟩ stone).owned hnew
    have htwo := (edits_setBlock _ ⟨256, 0, 0⟩ stone).owned hone
    refine ⟨_, htwo, rfl, ?_, ?_⟩
    · rw [kind?_setBlock hone, if_neg (by decide), kind?_setBlock hnew]
      rfl
    · rw [kind?_setBlock hone]
      rfl
  have hasked := (edits_visibleFaces .builtin u ⟨255, 0, 0⟩).owned hu
  have hblock := block?_markCached hasked ⟨15, 0, 0⟩
  have hkind : ∀ q, borderStones.kind? q = u.kind? q := by
    intro q
    rw [kind?, hscene, hblock, ← kind?, kind?_visibleFaces hu]
  refine ⟨?_, ?_, ?_, ?_⟩
  · exact (isSome_of_kind? ((hkind ⟨256, 0, 0⟩).trans hsecond)).2
  · have hparent : (⟨255, 0, 0⟩ : Coord).parent = ⟨15, 0, 0⟩ := by decide
    have hthere := (isSome_of_kind? ((kind?_visibleFaces (r := .builtin) hu ⟨255, 0, 0⟩ _).trans
      hfirst)).1
    obtain ⟨d, hd⟩ := Option.isSome_iff_exists.mp hthere
    rw [hparent] at hd
    rw [hscene, chunk?_markCached hasked hd]
    rfl
  · rw [remembersFaces, hscene, hblock]
    exact remembersFaces_visibleFaces hu hfirst
  · obtain ⟨b, hb, hstone⟩ := Option.map_eq_some_iff.mp ((hkind ⟨255, 0, 0⟩).trans hfirst)
    refine ⟨b, hb, .posX, by decide, ?_⟩
    have hnext : borderStones.kind? (⟨255, 0, 0⟩ + Face.posX.offset) = some stone :=
      (hkind ⟨256, 0, 0⟩).trans hsecond
    rw [hnext, hstone]
    decide

/-! ## Unloading -/

/-- Unloading a megachunk leaves every other chunk of a world as it is, with its masks and its mark
of being drawn. So at a position outside the megachunk the answer is the mask from before if one was
remembered, and the fresh one otherwise. The fresh mask has changed just where a face was covered from
the megachunk, and the answer is out of date just where such a mask was remembered. -/
theorem run_new_unload_visibleFaces (r : Registry) (seed : Int64) (id : String)
    (createdAt : Data.Timestamp) (compression : String) (moves : List Move) (m : Coord) :
    let w := Move.run moves (.new seed id createdAt compression)
    let w' := (w.unload m).2
    w.FacesTrue r →
    (∀ c : Coord, w'.chunk? c = if c.parent = m then none else w.chunk? c)
      ∧ ∀ p : Coord, p.parent.parent ≠ m →
        (w'.visibleFaces r p).1
            = (if w.remembersFaces p then w.freshFaces r p else w'.freshFaces r p)
          ∧ (w'.freshFaces r p = w.freshFaces r p ↔ ¬ w.CoveredFrom r m p)
          ∧ ((w'.visibleFaces r p).1 = w'.freshFaces r p
              ↔ ¬ (w.remembersFaces p = true ∧ w.CoveredFrom r m p)) := by
  intro w w' ht
  have ho : w.Owned := (owned_new seed id createdAt compression).run moves
  exact ⟨chunk?_unload ho m, fun p hp => ⟨visibleFaces_unload ho ht hp,
    freshFaces_unload_eq_iff ho hp, visibleFaces_unload_eq_iff ho ht hp⟩⟩

/-- The first stone of a border is seen as before when the megachunk of the second is gone. -/
theorem run_new_unload_visibleFaces_border :
    borderStones.FacesTrue .builtin
      ∧ ((borderStones.unload ⟨1, 0, 0⟩).2.visibleFaces .builtin ⟨255, 0, 0⟩).1
        = borderStones.freshFaces .builtin ⟨255, 0, 0⟩ := by
  have hanswer := (run_new_unload_visibleFaces .builtin 1 "" .zero "" _ ⟨1, 0, 0⟩
    facesTrue_borderStones).2 ⟨255, 0, 0⟩ (by decide)
  refine ⟨facesTrue_borderStones, hanswer.1.trans ?_⟩
  exact if_pos borderStones_covered.2.2.1

/-- All masks are true and the megachunk is there, but after it is unloaded a mask beyond its border
is out of date, and the chunk that shows it counts as drawn. -/
theorem unload_leaves_stale_faces :
    borderStones.FacesTrue .builtin
      ∧ (borderStones.unload ⟨1, 0, 0⟩).1 = true
      ∧ ((borderStones.unload ⟨1, 0, 0⟩).2.visibleFaces .builtin ⟨255, 0, 0⟩).1
        ≠ (borderStones.unload ⟨1, 0, 0⟩).2.freshFaces .builtin ⟨255, 0, 0⟩
      ∧ ((borderStones.unload ⟨1, 0, 0⟩).2.chunk? ⟨15, 0, 0⟩).map (·.chunk.cached) = some true := by
  obtain ⟨hthere, hdrawn, hremembered, hcovered⟩ := borderStones_covered
  refine ⟨facesTrue_borderStones, ?_, ?_, ?_⟩
  · obtain ⟨m, hm⟩ := Option.isSome_iff_exists.mp hthere
    have hlisted : borderStones.megachunks[(⟨1, 0, 0⟩ : Coord)]? = some m := hm
    rw [unload, hlisted]
  · intro hright
    rw [visibleFaces_unload_eq_iff owned_borderStones facesTrue_borderStones (by decide)] at hright
    exact hright ⟨hremembered, hcovered⟩
  · rw [chunk?_unload owned_borderStones, if_neg (by decide), hdrawn]

end World

end BlockWorld
