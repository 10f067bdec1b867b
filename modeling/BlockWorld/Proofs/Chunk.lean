import BlockWorld.Chunk.Faces
/-!
The cells of a chunk after an edit. Every edit replaces one cell; what a cell holds apart from its
remembered faces (`Cell.content`) changes only by writing a block or a damage. The same edits seen
through `block?`, faces included, are in the second half.

Everything rests on one lemma, `cell_setCell`: replacing a cell is seen at its place and at no other. The
places of two cells are told apart by their numbers (`index_val_inj`). From it there is an equation for each
edit and each of the two views; those for `content` say nothing of faces and are what edits of the world use,
and those for `block?` also say which faces are still remembered.
-/
namespace BlockWorld

open Grid Block

/-- A block with its damage: what a cell holds apart from the faces that it remembers. -/
structure Content where
  kind : BlockId
  damage : Float32

/-- What a cell holds. -/
def Cell.content (b : Cell) : Content := ⟨b.kind, b.damage⟩

/-- What a place holds that nothing was ever put at. -/
def Content.air : Content := ⟨Block.air, 0⟩

namespace Chunk

theorem cell_eq_getElem (c : Chunk) (l : Local) : c.cell l = c.cells[l.index.val] := rfl

theorem index_val_inj {l l' : Local} : l.index.val = l'.index.val ↔ l = l' := by
  constructor
  · intro he
    rw [← Local.ofIndex_index l, ← Local.ofIndex_index l', Fin.ext he]
  · rintro rfl
    rfl

/-- Replacing a cell is seen at its place only. -/
theorem cell_setCell (c : Chunk) (l : Local) (b : Cell) (l' : Local) :
    (c.setCell l b).cell l' = if l' = l then b else c.cell l' := by
  rw [cell_eq_getElem, cell_eq_getElem]
  simp only [setCell, Vector.getElem_set, index_val_inj, eq_comm]

@[simp] theorem cell_empty (l : Local) : empty.cell l = .empty := by
  simp [cell_eq_getElem, empty]

/-- The content of a place. -/
def content (c : Chunk) (l : Local) : Content := (c.cell l).content

/-- The content of a place makes up a block unless it is air. -/
theorem block?_map_content (c : Chunk) (l : Local) :
    (c.block? l).map Cell.content
      = if (c.content l).kind = air then none else some (c.content l) := by
  have hair : (c.cell l).isAir = true ↔ (c.content l).kind = air := beq_iff_eq
  by_cases hk : (c.content l).kind = air
  · rw [block?, if_pos (hair.mpr hk), if_pos hk, Option.map_none]
  · rw [block?, if_neg fun ha => hk (hair.mp ha), if_neg hk, Option.map_some, content]

@[simp] theorem content_empty (l : Local) : empty.content l = .air := by
  rw [content, cell_empty]
  rfl

theorem content_setBlock (c : Chunk) (l : Local) (id : BlockId) (l' : Local) :
    (c.setBlock l id).content l' = if l' = l then ⟨id, 0⟩ else c.content l' := by
  have hcell : (c.setBlock l id).cell l' = if l' = l then .fresh id else c.cell l' :=
    cell_setCell c l (.fresh id) l'
  rw [content, hcell]
  split <;> rfl

theorem content_setDamage (c : Chunk) (l : Local) (d : Float32) (l' : Local) :
    (c.setDamage l d).content l'
      = if l' = l then ⟨(c.content l).kind, clampDamage d⟩ else c.content l' := by
  have hcell : (c.setDamage l d).cell l'
      = if l' = l then { c.cell l with damage := clampDamage d } else c.cell l' :=
    cell_setCell c l _ l'
  rw [content, hcell]
  split <;> rfl

/-- Other faces at a place change no content. -/
theorem content_setFaces (c : Chunk) (l : Local) (faces : FaceMask) (l' : Local) :
    (c.setCell l { c.cell l with faces }).content l' = c.content l' := by
  rw [content, cell_setCell]
  split
  · rename_i he
    rw [he]
    rfl
  · rfl

theorem content_resetFaces (c : Chunk) (l l' : Local) :
    (c.resetFaces l).content l' = c.content l' :=
  content_setFaces c l _ l'

theorem content_visibleFaces (r : Registry) (c : Chunk) (l : Local) (origin : Coord)
    (outside : Coord → Option BlockId) (l' : Local) :
    (c.visibleFaces r l origin outside).2.content l' = c.content l' := by
  simp only [visibleFaces]
  split
  · rfl
  · split
    · rfl
    · exact content_setFaces c l _ l'

end Chunk

/-! ## Blocks -/

/-- A cell that does not remember its faces. -/
def Cell.forget (b : Cell) : Cell := { b with faces := .unknown }

@[simp] theorem Cell.kind_forget (b : Cell) : b.forget.kind = b.kind := rfl

@[simp] theorem Cell.faces_forget (b : Cell) : b.forget.faces = .unknown := rfl

@[simp] theorem Cell.faces_fresh (id : BlockId) : (fresh id).faces = .unknown := rfl

/-- The cell as a block, unless it is air. -/
def Cell.solid? (b : Cell) : Option Cell := if b.isAir then none else some b

namespace Chunk

variable (c : Chunk) (l l' : Local)

theorem block?_eq_solid? : c.block? l = (c.cell l).solid? := rfl

theorem block?_setCell (b : Cell) :
    (c.setCell l b).block? l' = if l' = l then b.solid? else c.block? l' := by
  rw [block?_eq_solid?, block?_eq_solid?, cell_setCell]
  split <;> rfl

/-- A change of a cell that keeps its type changes the block, if there is one. -/
theorem block?_setCell_map {f : Cell → Cell} (hf : ∀ b, (f b).kind = b.kind) :
    (c.setCell l (f (c.cell l))).block? l'
      = if l' = l then (c.block? l).map f else c.block? l' := by
  rw [block?_setCell, block?_eq_solid? c l]
  have hair : (f (c.cell l)).isAir = (c.cell l).isAir := by
    rw [Cell.isAir, Cell.isAir, hf]
  unfold Cell.solid?
  rw [hair]
  split
  · split <;> rfl
  · rfl

theorem block?_setBlock (id : BlockId) :
    (c.setBlock l id).block? l' = if l' = l then (Cell.fresh id).solid? else c.block? l' :=
  block?_setCell c l l' (.fresh id)

theorem block?_setDamage (d : Float32) :
    (c.setDamage l d).block? l'
      = if l' = l then (c.block? l).map fun b => { b with damage := clampDamage d }
        else c.block? l' :=
  block?_setCell_map c l l' (f := fun b => { b with damage := clampDamage d }) fun _ => rfl

theorem block?_resetFaces :
    (c.resetFaces l).block? l' = if l' = l then (c.block? l).map Cell.forget else c.block? l' :=
  block?_setCell_map c l l' (f := Cell.forget) fun _ => rfl

@[simp] theorem block?_empty : empty.block? l = none := by
  rw [block?_eq_solid?, cell_empty]
  rfl

theorem cell_of_block? {c : Chunk} {l : Local} {b : Cell} (hb : c.block? l = some b) :
    c.cell l = b ∧ (c.cell l).isAir = false := by
  rw [block?] at hb
  split at hb
  · cases hb
  · rename_i hair
    exact ⟨Option.some.inj hb, by simpa using hair⟩

theorem kind_ne_air_of_block? {c : Chunk} {l : Local} {b : Cell} (hb : c.block? l = some b) :
    b.kind ≠ air := by
  obtain ⟨rfl, hair⟩ := cell_of_block? hb
  simpa [Cell.isAir] using hair

end Chunk

end BlockWorld
