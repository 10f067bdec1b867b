import BlockWorld.Terrain.Generate
/-!
Targets that refuse no block. Filling chunks of such a target is a plain run of writes and marks
(`generateChunk_fst`, `generateChunks_target`), so that two of them which answer alike can be filled
side by side (`Target.Matches`).

How the proof goes. Writing stops at the first block that is refused; where none is, the list of writes is
gone through to its end (`writeAll_total`, by induction on the list). So filling a chunk is a test of its mark
and a fold of writes, and filling several is a fold of that. `Target.Matches` asks of two targets that a
write, a mark and the question for a mark go together, and what is filled side by side stays related
(`Target.Matches.generateChunk`, `Target.Matches.generateSpawn`).
-/
namespace BlockWorld.Terrain

open Grid Block

variable {σ τ : Type}

section Total

variable (t : Target σ Empty)

/-- All writes are made. -/
theorem writeAll_total (writes : List Write) (s : σ) :
    writeAll t writes s = (writes.foldl (fun s e => (t.setBlock s e.1 e.2).1) s, none) := by
  induction writes generalizing s with
  | nil => rfl
  | cons e writes ih =>
    obtain ⟨p, id⟩ := e
    unfold writeAll
    split
    · rename_i h
      simp [h, ih]
    · rename_i cause _
      exact cause.elim

/-- A chunk is filled and marked unless it has been marked before. -/
theorem generateChunk_fst (g : Landscape) (c : Coord) (s : σ) :
    (generateChunk t g c s).1
      = if t.isGenerated s c then s
        else t.markGenerated ((g.chunkWrites c).foldl (fun s e => (t.setBlock s e.1 e.2).1) s) c := by
  unfold generateChunk
  rw [writeAll_total]
  split <;> rfl

/-- Filling tells whether the chunk had not been marked before. -/
theorem generateChunk_snd (g : Landscape) (c : Coord) (s : σ) :
    (generateChunk t g c s).2 = .ok (!t.isGenerated s c) := by
  unfold generateChunk
  rw [writeAll_total]
  cases hc : t.isGenerated s c <;> rfl

/-- The first of several chunks counts as filled if it had not been marked before. -/
theorem generateChunks_cons (g : Landscape) (filled : List Coord) (c : Coord) (cs : List Coord)
    (s : σ) :
    generateChunks t g filled (c :: cs) s
      = generateChunks t g (if t.isGenerated s c then filled else c :: filled) cs
        (generateChunk t g c s).1 := by
  have hsnd := generateChunk_snd t g c s
  rw [generateChunks]
  generalize generateChunk t g c s = result at hsnd ⊢
  obtain ⟨s', outcome⟩ := result
  subst hsnd
  cases hc : t.isGenerated s c <;> rfl

/-- Nothing stops the filling early. -/
theorem generateChunks_error (g : Landscape) (filled cs : List Coord) (s : σ) :
    (generateChunks t g filled cs s).error = none := by
  cases (generateChunks t g filled cs s).error with
  | none => rfl
  | some e => exact e.cause.elim

/-- Chunks are filled one after the other. -/
theorem generateChunks_target (g : Landscape) (filled cs : List Coord) (s : σ) :
    (generateChunks t g filled cs s).target = cs.foldl (fun s c => (generateChunk t g c s).1) s := by
  induction cs generalizing filled s with
  | nil => rfl
  | cons c cs ih =>
    unfold generateChunks
    split
    · rename_i e _
      exact e.cause.elim
    · rename_i h
      simp [h, ih]
    · rename_i h
      simp [h, ih]

end Total

/-- Two targets of which one follows the other: what is done to both keeps a relation between their
states, and both say alike which chunks have been filled. -/
structure Target.Matches (R : σ → τ → Prop) (t : Target σ Empty) (t' : Target τ Empty) : Prop where
  setBlock : ∀ {s s'}, R s s' → ∀ p id, R (t.setBlock s p id).1 (t'.setBlock s' p id).1
  markGenerated : ∀ {s s'}, R s s' → ∀ c, R (t.markGenerated s c) (t'.markGenerated s' c)
  isGenerated : ∀ {s s'}, R s s' → ∀ c, t.isGenerated s c = t'.isGenerated s' c

namespace Target.Matches

variable {R : σ → τ → Prop} {t : Target σ Empty} {t' : Target τ Empty} (ht : Matches R t t')
include ht

theorem generateChunk (g : Landscape) (c : Coord) {s : σ} {s' : τ} (hs : R s s') :
    R (generateChunk t g c s).1 (Terrain.generateChunk t' g c s').1 := by
  rw [generateChunk_fst, generateChunk_fst, ht.isGenerated hs c]
  split
  · exact hs
  · refine ht.markGenerated ?_ c
    exact List.foldl_rel hs fun e _ _ _ hs => ht.setBlock hs e.1 e.2

theorem generateSpawn (g : Landscape) (radius : Int64) {s : σ} {s' : τ} (hs : R s s') :
    R (generateSpawn t g radius s).target (Terrain.generateSpawn t' g radius s').target := by
  unfold Terrain.generateSpawn
  rw [generateChunks_target, generateChunks_target]
  exact List.foldl_rel hs fun c _ _ _ hs => ht.generateChunk g c hs

end Target.Matches

end BlockWorld.Terrain
