import BlockWorld.Proofs.World.Faces
/-!
Looking at a world. A world that is only looked at may afterwards remember more faces and have other
books, and stays the same in everything else (`Glance.sameButFaces`).

How the proof goes. A glance is one of two things, asking for the faces at one position or changing the books.
For the first, a chunk fills a mask in that it did not know (`ChunkData.sameButFaces_visibleFaces`), and no
other chunk changes. The second changes no chunk (`Unchanged.sameButFaces`). A glance is also a chain of edits
(`Glance.edits`) and keeps remembered faces true (`Glance.facesTrue`), so that what is known of these holds
for it.
-/
namespace BlockWorld

open Grid Block

/-- Two chunks that differ at most in faces that one of them does not know. -/
structure ChunkData.SameButFaces (d d' : ChunkData) : Prop where
  content : ∀ l, d'.chunk.content l = d.chunk.content l
  faces : ∀ l, (d.chunk.cell l).faces.isValid = true →
    (d'.chunk.cell l).faces = (d.chunk.cell l).faces
  cached : d'.chunk.cached = d.chunk.cached
  generated : d'.generated = d.generated
  priority : d'.priority = d.priority
  lastTouched : d'.lastTouched = d.lastTouched

theorem ChunkData.SameButFaces.refl (d : ChunkData) : d.SameButFaces d :=
  ⟨fun _ => rfl, fun _ _ => rfl, rfl, rfl, rfl, rfl⟩

/-- A chunk that is asked for faces fills in those that it does not know. -/
theorem ChunkData.sameButFaces_visibleFaces (r : Registry) (d : ChunkData) (l : Local)
    (origin : Coord) (outside : Coord → Option BlockId) :
    d.SameButFaces { d with chunk := (d.chunk.visibleFaces r l origin outside).2 } where
  content := Chunk.content_visibleFaces r d.chunk l origin outside
  faces l' hvalid := by
    simp only [Chunk.visibleFaces]
    split
    · rfl
    · split
      · rfl
      · rename_i hunknown
        rw [Chunk.cell_setCell]
        split
        · rename_i he
          exact absurd (he ▸ hvalid) hunknown
        · rfl
  cached := by
    simp only [Chunk.visibleFaces]
    split
    · rfl
    · split <;> rfl
  generated := rfl
  priority := rfl
  lastTouched := rfl

namespace World

variable {r : Registry} {w w' : World}

/-- Two worlds that differ at most in their books and in faces that one of them does not know. -/
structure SameButFaces (w w' : World) : Prop where
  megachunks : w'.megachunks = w.megachunks
  present : ∀ c, (w'.chunk? c).isSome = (w.chunk? c).isSome
  chunks : ∀ c d d', w.chunk? c = some d → w'.chunk? c = some d' → d.SameButFaces d'
  size : w'.arena.size = w.arena.size
  live : w'.arena.live = w.arena.live
  freeCount : w'.arena.freeCount = w.arena.freeCount
  tick : w'.tick = w.tick
  name : w.SameName w'

theorem Unchanged.refl (w : World) : w.Unchanged w := ⟨⟨rfl, rfl⟩, .refl w, rfl⟩

theorem Unchanged.sameButFaces (h : w.Unchanged w') : w.SameButFaces w' where
  megachunks := h.storage.1
  present c := by rw [h.storage.chunk?_eq]
  chunks c d d' hd hd' := by
    rw [h.storage.chunk?_eq, hd] at hd'
    obtain rfl := Option.some.inj hd'
    exact .refl d
  size := by rw [h.storage.2]
  live := by rw [h.storage.2]
  freeCount := by rw [h.storage.2]
  tick := h.tick
  name := h.name

/-- One look at a world: a question for faces, or something that is only counted. -/
inductive Glance (r : Registry) (w : World) : World → Prop where
  | faces (p : Coord) : Glance r w (w.visibleFaces r p).2
  | books {w' : World} (h : w.Unchanged w') : Glance r w w'

theorem Glance.refl (r : Registry) (w : World) : Glance r w w := .books (.refl w)

theorem Glance.edits (h : Glance r w w') : Edits w w' := by
  cases h with
  | faces p => exact edits_visibleFaces r w p
  | books h => exact edits_books h.storage h.name

theorem Glance.facesTrue (h : Glance r w w') (ho : w.Owned) (ht : w.FacesTrue r) :
    w'.FacesTrue r := by
  cases h with
  | faces p => exact ht.visibleFaces ho p
  | books h => exact ht.of_block?_eq h.storage.block?_eq

theorem Glance.sameButFaces (h : Glance r w w') (ho : w.Owned) : w.SameButFaces w' := by
  cases h with
  | books h => exact h.sameButFaces
  | faces p =>
    cases hh : w.handle? p.parent with
    | none =>
      rw [visibleFaces, hh]
      exact (Unchanged.refl w).sameButFaces
    | some h =>
      rw [visibleFaces_of_handle? hh]
      have hchunk := chunk?_modifySlot ho hh fun d => { d with chunk :=
        ((w.arena.slot h).chunk.visibleFaces r p.place (p.parent.scale edge) w.kind?).2 }
      refine ⟨rfl, fun c => ?_, fun c d d' hd hd' => ?_, ?_, ?_, ?_, rfl, rfl, rfl, rfl, rfl⟩
      · rw [hchunk]
        split
        · rename_i he
          rw [he, Option.isSome_map]
        · rfl
      · rw [hchunk] at hd'
        split at hd'
        · rename_i he
          rw [he, ho.chunk?_of_handle? hh] at hd
          rw [ho.chunk?_of_handle? hh] at hd'
          obtain rfl := Option.some.inj hd
          obtain rfl := Option.some.inj hd'
          exact ChunkData.sameButFaces_visibleFaces r _ p.place _ _
        · obtain rfl := Option.some.inj (hd.symm.trans hd')
          exact .refl d
      · exact Arena.size_modify ..
      · exact Arena.live_modify ..
      · exact congrArg List.length (Arena.free_modify ..)

theorem SameButFaces.isGenerated_eq (h : w.SameButFaces w') (c : Coord) :
    w'.isGenerated c = w.isGenerated c := by
  rw [World.isGenerated_eq, World.isGenerated_eq]
  have hpresent := h.present c
  cases hd : w.chunk? c with
  | none =>
    rw [hd, Option.isSome_none, Option.isSome_eq_false_iff, Option.isNone_iff_eq_none] at hpresent
    rw [hpresent]
  | some d =>
    rw [hd, Option.isSome_some, Option.isSome_iff_exists] at hpresent
    obtain ⟨d', hd'⟩ := hpresent
    rw [hd', Option.map_some, Option.map_some, (h.chunks _ d d' hd hd').generated]

/-- The content of every position stays. -/
theorem SameButFaces.content_eq (h : w.SameButFaces w') (q : Coord) :
    (w'.block? q).map Cell.content = (w.block? q).map Cell.content := by
  rw [block?_eq_chunk?, block?_eq_chunk?]
  have hpresent := h.present q.parent
  cases hd : w.chunk? q.parent with
  | none =>
    rw [hd, Option.isSome_none, Option.isSome_eq_false_iff, Option.isNone_iff_eq_none] at hpresent
    rw [hpresent]
  | some d =>
    rw [hd, Option.isSome_some, Option.isSome_iff_exists] at hpresent
    obtain ⟨d', hd'⟩ := hpresent
    rw [hd', Option.bind_some, Option.bind_some, Chunk.block?_map_content,
      Chunk.block?_map_content, (h.chunks _ d d' hd hd').content]

end World

end BlockWorld
