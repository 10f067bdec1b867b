import BlockWorld.Proofs.World.Faces
/-!
Pictures that are up to date. A chunk is drawn from its blocks, their damages and their visible
faces, and the faces of its outermost blocks depend on the chunks around it. Whatever changes one of
these marks the picture as out of date: forgetting the faces of a position does so for its chunk
(`isCached_forgetFaces`), and a write forgets the faces of all positions that see it. So as long as
no picture is marked as up to date, those which still are show what is there
(`KeepsPictures.run`). Chunks that are made or loaded have no picture yet (`Undrawn.run`).

How the proof goes. `KeepsPictures` relates a world before and after something: a picture that is up to date
afterwards was so before, and its chunk has the same content and the same faces. It is transitive, so there is
one lemma for each operation and an induction for runs. Operations that change no type are the easier half,
since faces depend on types (`KeepsPictures.of_kinds`). A write changes a type, and the faces of the position
and of its neighbours with it; but it forgets all of these, and forgetting marks the pictures of their chunks
(`isCached_foldl_forgetFaces`). A chunk that is still marked as up to date therefore has none of these
positions in it, and so it has not noticed the write (`chunk?_setBlock_of_away`, `isCached_setBlock`).
-/
namespace BlockWorld

open Grid Block

namespace World

variable {r : Registry} {u v w w' : World} {c : Coord}

/-- The chunk is there and its picture is up to date. -/
def isCached (w : World) (c : Coord) : Bool := ((w.chunk? c).map (·.chunk.cached)).getD false

/-- The content of a chunk, place by place. -/
def contentOf (w : World) (c : Coord) : Option (Local → Content) :=
  (w.chunk? c).map (·.chunk.content)

theorem isCached_congr (h : w'.chunk? c = w.chunk? c) : w'.isCached c = w.isCached c := by
  rw [isCached, isCached, h]

/-- A chunk that stays as it is. -/
theorem kept_of_chunk? (h : w'.chunk? c = w.chunk? c) (hc : w'.isCached c = true) :
    w.isCached c = true ∧ w'.contentOf c = w.contentOf c := by
  refine ⟨(isCached_congr h).symm.trans hc, ?_⟩
  rw [contentOf, contentOf, h]

/-- Faces that have just been forgotten are computed afresh. -/
theorem visibleFaces_refresh (ho : w.Owned) (p : Coord) :
    ((w.refresh p).visibleFaces r p).1 = w.freshFaces r p := by
  have hkinds : ∀ q, (w.refresh p).kind? q = w.kind? q := by
    intro q
    simp only [kind?, block?_refresh ho]
    split <;> simp [Function.comp_def]
  have hself : p ∈ surroundings p := mem_surroundings.mpr (.inl rfl)
  rw [visibleFaces_fst ((edits_refresh w p).owned ho), block?_refresh ho, if_pos hself,
    freshFaces_congr fun q _ => hkinds q]
  cases hb : w.block? p with
  | none => simp [freshFaces_of_none hb]
  | some b => simp

/-! ## Pictures that stay up to date -/

/-- A picture that is up to date afterwards was so before, and shows the same. -/
def KeepsPictures (r : Registry) (w w' : World) : Prop :=
  ∀ c, w'.isCached c = true →
    w.isCached c = true ∧ w'.contentOf c = w.contentOf c
      ∧ ∀ p : Coord, p.parent = c → w'.freshFaces r p = w.freshFaces r p

theorem KeepsPictures.refl (w : World) : KeepsPictures r w w :=
  fun _ hc => ⟨hc, rfl, fun _ _ => rfl⟩

theorem KeepsPictures.trans (huv : KeepsPictures r u v) (hvw : KeepsPictures r v w) :
    KeepsPictures r u w := by
  intro c hc
  obtain ⟨hv, hcontent, hfaces⟩ := hvw c hc
  obtain ⟨hu, hcontent', hfaces'⟩ := huv c hv
  exact ⟨hu, hcontent.trans hcontent', fun p hp => (hfaces p hp).trans (hfaces' p hp)⟩

/-- Where no type changes, only the chunk itself has to be looked at. -/
theorem KeepsPictures.of_kinds (hkinds : ∀ q, w'.kind? q = w.kind? q)
    (hchunks : ∀ c, w'.isCached c = true → w.isCached c = true ∧ w'.contentOf c = w.contentOf c) :
    KeepsPictures r w w' := by
  intro c hc
  obtain ⟨hbefore, hcontent⟩ := hchunks c hc
  exact ⟨hbefore, hcontent, fun p _ => freshFaces_congr fun q _ => hkinds q⟩

theorem KeepsPictures.of_storage (hs : w.SameStorage w') : KeepsPictures r w w' := by
  exact .of_kinds (fun q => by rw [kind?, kind?, hs.block?_eq]) fun c =>
    kept_of_chunk? (hs.chunk?_eq c)

section Steps

variable (ho : w.Owned)
include ho

/-! ## Marks and questions -/

/-- A change of a chunk that keeps its blocks and its picture. -/
theorem KeepsPictures.change {h : Nat} (hh : w.handle? c = some h) {f : ChunkData → ChunkData}
    (hcached : (f (w.arena.slot h)).chunk.cached = (w.arena.slot h).chunk.cached)
    (hcontent : (f (w.arena.slot h)).chunk.content = (w.arena.slot h).chunk.content)
    (hkinds : ∀ q, (w.modifySlot h f).kind? q = w.kind? q) :
    KeepsPictures r w (w.modifySlot h f) := by
  refine .of_kinds hkinds fun c' hc' => ?_
  have hchunk := chunk?_modifySlot ho hh f c'
  by_cases he : c' = c
  · rw [he] at hc' ⊢
    rw [he, if_pos rfl, ho.chunk?_of_handle? hh, Option.map_some] at hchunk
    simp only [isCached, contentOf, hchunk, ho.chunk?_of_handle? hh, Option.map_some,
      Option.getD_some] at hc' ⊢
    exact ⟨hcached ▸ hc', congrArg some hcontent⟩
  · rw [if_neg he] at hchunk
    exact kept_of_chunk? hchunk hc'

/-- A chunk that is made has no picture. -/
theorem keepsPictures_ensureChunk (c : Coord) : KeepsPictures r w (w.ensureChunk c).2 := by
  refine .of_kinds (fun q => by rw [kind?, kind?, block?_ensureChunk ho]) fun c' hc' => ?_
  have hchunk := chunk?_ensureChunk ho c c'
  by_cases he : c' = c
  · rw [he] at hc' ⊢
    rw [he, if_pos rfl] at hchunk
    cases hd : w.chunk? c with
    | none =>
      rw [isCached, hchunk, hd] at hc'
      cases hc'
    | some d =>
      rw [hd, Option.getD_some] at hchunk
      exact kept_of_chunk? (hchunk.trans hd.symm) hc'
  · rw [if_neg he] at hchunk
    exact kept_of_chunk? hchunk hc'

/-- A mark on a chunk, which is made if it is not there. -/
theorem keepsPictures_mark (c : Coord) {f : ChunkData → ChunkData}
    (hf : ∀ d, (f d).chunk = d.chunk) :
    KeepsPictures r w ((w.ensureChunk c).2.modifySlot (w.ensureChunk c).1 f) := by
  have hreach := ho.ensureChunk c
  have hhandle := w.handle?_ensureChunk c
  refine (keepsPictures_ensureChunk ho c).trans (.change hreach hhandle ?_ ?_ fun q => ?_)
  · rw [hf]
  · rw [hf]
  · rw [kind?, kind?, block?_modifySlot_same hreach hhandle fun d l => by rw [hf]]

theorem keepsPictures_markChunk (c : Coord) (priority : Int64) :
    KeepsPictures r w (w.markChunk c priority) :=
  keepsPictures_mark ho c fun _ => rfl

theorem keepsPictures_markGenerated (c : Coord) : KeepsPictures r w (w.markGenerated c) :=
  keepsPictures_mark ho c fun _ => rfl

theorem keepsPictures_visibleFaces (r' : Registry) (p : Coord) :
    KeepsPictures r w (w.visibleFaces r' p).2 := by
  have hkinds := kind?_visibleFaces (r := r') ho p
  cases hh : w.handle? p.parent with
  | none =>
    rw [visibleFaces, hh]
    exact .refl w
  | some h =>
    rw [visibleFaces_of_handle? hh] at hkinds ⊢
    refine .change ho hh ?_ (funext fun l => ?_) hkinds
    · simp only [Chunk.visibleFaces]
      split
      · rfl
      · split <;> rfl
    · exact Chunk.content_visibleFaces r' _ p.place _ _ l

/-- A picture is marked as up to date if there is a chunk to draw. -/
theorem isCached_markCached (c c' : Coord) :
    (w.markCached c).isCached c' = if c' = c then (w.chunk? c).isSome else w.isCached c' := by
  rw [markCached]
  cases hh : w.handle? c with
  | none =>
    have hnone := ho.handle?_eq_none.mp hh
    change w.isCached c' = _
    split
    · rename_i he
      rw [he, isCached, hnone]
      rfl
    · rfl
  | some h =>
    simp only
    rw [isCached, chunk?_modifySlot ho hh]
    split
    · rw [ho.chunk?_of_handle? hh]
      rfl
    · rfl

/-! ## Writing -/

/-- Forgetting faces leaves the chunk of the position without a picture, and other chunks alone. -/
theorem chunk?_forgetFaces (p c : Coord) :
    (w.forgetFaces p).chunk? c
      = if c = p.parent then (w.chunk? c).map fun d =>
          { d with chunk := (d.chunk.resetFaces p.place).invalidate }
        else w.chunk? c := by
  rw [forgetFaces]
  cases hh : w.handle? p.parent with
  | none =>
    change w.chunk? c = _
    split
    · rename_i he
      rw [he, ho.handle?_eq_none.mp hh, Option.map_none]
    · rfl
  | some h =>
    simp only
    rw [chunk?_modifySlot ho hh]
    split
    · rename_i he
      rw [he]
    · rfl

theorem isCached_forgetFaces (p c : Coord) :
    (w.forgetFaces p).isCached c = if c = p.parent then false else w.isCached c := by
  rw [isCached, chunk?_forgetFaces ho]
  split
  · cases w.chunk? c <;> rfl
  · rfl

theorem chunk?_foldl_forgetFaces {ps : List Coord} (haway : ∀ q ∈ ps, q.parent ≠ c) :
    (ps.foldl forgetFaces w).chunk? c = w.chunk? c := by
  induction ps generalizing w with
  | nil => rfl
  | cons p ps ih =>
    obtain ⟨hne, hrest⟩ := List.forall_mem_cons.mp haway
    rw [List.foldl_cons, ih ((edits_forgetFaces w p).owned ho) hrest, chunk?_forgetFaces ho,
      if_neg hne.symm]

/-- The pictures that stay up to date are those of chunks with none of the positions. -/
theorem isCached_foldl_forgetFaces (ps : List Coord) (c : Coord) :
    (ps.foldl forgetFaces w).isCached c = true
      ↔ w.isCached c = true ∧ ∀ q ∈ ps, q.parent ≠ c := by
  induction ps generalizing w with
  | nil => simp
  | cons p ps ih =>
    rw [List.foldl_cons, ih ((edits_forgetFaces w p).owned ho), isCached_forgetFaces ho,
      List.forall_mem_cons]
    by_cases he : c = p.parent
    · simp [he]
    · simp [he, Ne.symm he]

theorem keepsPictures_refresh (p : Coord) : KeepsPictures r w (w.refresh p) := by
  refine .of_kinds (fun q => ?_) fun c hc => ?_
  · simp only [kind?, block?_refresh ho]
    split <;> simp [Function.comp_def]
  · have haway := ((isCached_foldl_forgetFaces ho (surroundings p) c).mp hc).2
    exact kept_of_chunk? (chunk?_foldl_forgetFaces ho haway) hc

/-- A write is a change of the chunk at its position, and then of what its surroundings remember. -/
theorem setBlock_eq_refresh (p : Coord) (id : BlockId) :
    ∃ v : World, v.Owned ∧ w.setBlock p id = v.refresh p
      ∧ ∀ c, c ≠ p.parent → v.chunk? c = w.chunk? c := by
  let f : ChunkData → ChunkData := fun d =>
    { d with chunk := d.chunk.setBlock p.place id, lastTouched := w.tick }
  let v := (w.ensureChunk p.parent).2.modifySlot (w.ensureChunk p.parent).1 f
  have hreach := ho.ensureChunk p.parent
  have hhandle := w.handle?_ensureChunk p.parent
  have hv : v.Owned := hreach.modifySlot_of_handle? hhandle f
  have hcounted : v.SameStorage { v with gauges := v.gauges.blockWritten } := ⟨rfl, rfl⟩
  refine ⟨_, hcounted.owned hv, rfl, fun c hne => ?_⟩
  rw [hcounted.chunk?_eq, chunk?_modifySlot hreach hhandle, if_neg hne, chunk?_ensureChunk ho,
    if_neg hne]

/-- A written block is not noticed by chunks that do not see its position. -/
theorem chunk?_setBlock_of_away {p : Coord} (id : BlockId)
    (haway : ∀ q ∈ surroundings p, q.parent ≠ c) :
    (w.setBlock p id).chunk? c = w.chunk? c := by
  obtain ⟨v, hv, hset, hchunk⟩ := setBlock_eq_refresh ho p id
  have hne : c ≠ p.parent := (haway p (mem_surroundings.mpr (.inl rfl))).symm
  rw [hset, refresh, chunk?_foldl_forgetFaces hv haway, hchunk c hne]

/-- The pictures that stay up to date are those of chunks that do not see the written position. -/
theorem isCached_setBlock (p : Coord) (id : BlockId) (c : Coord) :
    (w.setBlock p id).isCached c = true
      ↔ w.isCached c = true ∧ ∀ q ∈ surroundings p, q.parent ≠ c := by
  have hsame := fun haway => isCached_congr (chunk?_setBlock_of_away ho (c := c) (p := p) id haway)
  constructor
  · intro hc
    obtain ⟨v, hv, hset, -⟩ := setBlock_eq_refresh ho p id
    have hfold : ((surroundings p).foldl forgetFaces v).isCached c = true := by
      rw [← refresh, ← hset]
      exact hc
    have haway := ((isCached_foldl_forgetFaces hv (surroundings p) c).mp hfold).2
    exact ⟨(hsame haway).symm.trans hc, haway⟩
  · rintro ⟨hc, haway⟩
    exact (hsame haway).trans hc

theorem keepsPictures_setBlock (p : Coord) (id : BlockId) :
    KeepsPictures r w (w.setBlock p id) := by
  intro c hc
  obtain ⟨hbefore, haway⟩ := (isCached_setBlock ho p id c).mp hc
  have hcontent := (kept_of_chunk? (chunk?_setBlock_of_away ho id haway) hc).2
  refine ⟨hbefore, hcontent, fun q hq => freshFaces_congr fun q' hq' => ?_⟩
  -- A position of the chunk does not see the written one.
  have hne : q' ≠ p := by
    rintro rfl
    exact haway q (mem_surroundings_comm.mp hq') hq
  rw [kind?_setBlock ho, if_neg hne]

theorem keepsPictures_damageBlock (r' : Registry) (p : Coord) (amount : Float32) :
    KeepsPictures r w (w.damageBlock r' p amount).2 := by
  rw [damageBlock]
  cases strike r' (w.block? p) amount with
  | none => exact .refl w
  | broken => exact (keepsPictures_setBlock ho p air).trans (.of_storage (sameStorage_note _ _))
  | damaged damage =>
    cases hh : w.handle? p.parent with
    | none => simp only; exact .refl w
    | some h =>
      simp only
      refine .of_kinds (fun q => ?_) fun c hc => ?_
      · rw [kind?, kind?, block?_writeDamage ho hh]
        split
        · rename_i hq
          simp [hq, Function.comp_def]
        · rfl
      · have hchunk := chunk?_modifySlot ho hh (fun d =>
          { d with chunk := d.chunk.setDamage p.place damage, lastTouched := w.tick }) c
        by_cases he : c = p.parent
        · -- The chunk of the damaged block has lost its picture.
          rw [if_pos he, ho.chunk?_of_handle? hh] at hchunk
          rw [isCached, hchunk] at hc
          cases hc
        · rw [if_neg he] at hchunk
          exact kept_of_chunk? hchunk hc

end Steps

/-! ## The generator -/

/-- What keeps pictures one at a time keeps them one after the other. -/
theorem KeepsPictures.foldl {α : Type} {f : World → α → World}
    (hf : ∀ u a, u.Owned → (f u a).Owned ∧ KeepsPictures r u (f u a)) (l : List α)
    (ho : w.Owned) : (l.foldl f w).Owned ∧ KeepsPictures r w (l.foldl f w) := by
  induction l generalizing w with
  | nil => exact ⟨ho, .refl w⟩
  | cons a l ih =>
    obtain ⟨hown, hfirst⟩ := hf w a ho
    obtain ⟨hown', hrest⟩ := ih hown
    exact ⟨hown', hfirst.trans hrest⟩

theorem keepsPictures_generateChunk (ho : w.Owned) (g : Terrain.Landscape) (c : Coord) :
    KeepsPictures r w (Terrain.generateChunk .world g c w).1 := by
  rw [generateChunk_world]
  split
  · exact .refl w
  · have hwrite : ∀ (u : World) (write : Terrain.Write), u.Owned →
        (u.setBlock write.1 write.2).Owned
          ∧ KeepsPictures r u (u.setBlock write.1 write.2) := by
      intro u write hu
      exact ⟨(edits_setBlock u write.1 write.2).owned hu,
        keepsPictures_setBlock hu write.1 write.2⟩
    obtain ⟨hown, hwrites⟩ := KeepsPictures.foldl hwrite (g.chunkWrites c) ho
    exact hwrites.trans (keepsPictures_markGenerated hown c)

theorem keepsPictures_generateSpawn (ho : w.Owned) (g : Terrain.Landscape) (radius : Int64) :
    KeepsPictures r w (Terrain.generateSpawn .world g radius w).target := by
  rw [Terrain.generateSpawn, generateChunks_world]
  exact (KeepsPictures.foldl (fun u c hu => ⟨(edits_generateChunk g c u).owned hu,
    keepsPictures_generateChunk hu g c⟩) _ ho).2

end World

/-! ## Runs -/

/-- Moves that neither remove chunks nor load any, and that mark no picture as up to date. -/
def Move.IsEdit : Move → Prop
  | .act .reset => False
  | .act (.unload _) => False
  | .markCached _ => False
  | .load _ => False
  | _ => True

namespace World

variable {r : Registry} {w w' : World}

theorem KeepsPictures.apply (ho : w.Owned) {m : Move} (hm : m.IsEdit) :
    KeepsPictures r w (m.apply w) := by
  cases m with
  | act a =>
    cases a with
    | setBlock p id => exact keepsPictures_setBlock ho p id
    | damageBlock r' p amount => exact keepsPictures_damageBlock ho r' p amount
    | markChunk c priority => exact keepsPictures_markChunk ho c priority
    | markGenerated c => exact keepsPictures_markGenerated ho c
    | advanceTick => exact .of_storage ⟨rfl, rfl⟩
    | reset => exact hm.elim
    | unload c => exact hm.elim
    | ask q =>
      cases q with
      | refresh p => exact keepsPictures_refresh ho p
      | visibleFaces r' p => exact keepsPictures_visibleFaces ho r' p
      | block? p => exact .refl w
      | chunk? c => exact .refl w
      | raycast origin direction length before =>
        simp only [Move.apply, Action.apply, Question.apply, raycast]
        split
        · exact .refl w
        · exact .of_storage ⟨rfl, rfl⟩
      | collide box => exact .of_storage ⟨rfl, rfl⟩
  | markCached c => exact hm.elim
  | save savedAt archive =>
    simp only [Move.apply, saveTo]
    split <;> exact .of_storage ⟨rfl, rfl⟩
  | load source => exact hm.elim
  | generateChunk g c => exact keepsPictures_generateChunk ho g c
  | generateSpawn g radius => exact keepsPictures_generateSpawn ho g radius

theorem KeepsPictures.run (ho : w.Owned) {moves : List Move} (hm : ∀ m ∈ moves, m.IsEdit) :
    KeepsPictures r w (Move.run moves w) := by
  induction moves generalizing w with
  | nil => exact .refl w
  | cons m moves ih =>
    have hfirst := KeepsPictures.apply (r := r) ho (hm m List.mem_cons_self)
    exact hfirst.trans (ih (ho.run [m]) fun m' hm' => hm m' (List.mem_cons_of_mem m hm'))

/-! ## Worlds without pictures -/

/-- No picture is up to date. -/
def Undrawn (w : World) : Prop := ∀ c, w.isCached c = false

theorem Undrawn.of_keeps (hw : w.Undrawn) (hk : KeepsPictures r w w') : w'.Undrawn := by
  intro c
  cases hc : w'.isCached c with
  | false => rfl
  | true => exact (hk c hc).1.symm.trans (hw c)

theorem undrawn_reset (w : World) : w.reset.Undrawn := by
  intro c
  rw [isCached, chunk?_reset]
  rfl

theorem Undrawn.unload (ho : w.Owned) (hw : w.Undrawn) (m : Coord) : (w.unload m).2.Undrawn := by
  intro c
  rw [isCached, chunk?_unload ho]
  split
  · rfl
  · exact hw c

/-- Loaded chunks have no picture, whatever their slots held before. -/
theorem undrawn_loadFrom (ho : w.Owned) {source : Save.Source}
    (h : (w.loadFrom source).1 = .ok ()) : (w.loadFrom source).2.Undrawn := by
  intro c
  cases hparse : parseSave source with
  | error e => cases (loadFrom_of_error w hparse).1.symm.trans h
  | ok save =>
    rw [isCached]
    cases hd : (w.loadFrom source).2.chunk? c with
    | none => rfl
    | some d => exact (pristine_loadFrom ho hparse hd).cached

theorem Undrawn.loadFrom (ho : w.Owned) (hw : w.Undrawn) (source : Save.Source) :
    (w.loadFrom source).2.Undrawn := by
  cases hparse : parseSave source with
  | ok save => exact undrawn_loadFrom ho (loadFrom_of_ok w hparse).1
  | error failure =>
    intro c
    rw [isCached_congr ((loadFrom_of_error w hparse).2.storage.chunk?_eq c)]
    exact hw c

/-- As long as no picture is marked as up to date, none is. -/
theorem Undrawn.run (ho : w.Owned) (hw : w.Undrawn) {moves : List Move}
    (hm : ∀ c, .markCached c ∉ moves) : (Move.run moves w).Undrawn := by
  induction moves generalizing w with
  | nil => exact hw
  | cons m moves ih =>
    have hrest : ∀ c, .markCached c ∉ moves := fun c hc => hm c (List.mem_cons_of_mem m hc)
    refine ih (ho.run [m]) ?_ hrest
    by_cases hedit : m.IsEdit
    · exact hw.of_keeps (KeepsPictures.apply (r := .builtin) ho hedit)
    · cases m with
      | act a =>
        cases a with
        | reset => exact undrawn_reset w
        | unload c => exact hw.unload ho c
        | _ => exact (hedit trivial).elim
      | markCached c => exact (hm c List.mem_cons_self).elim
      | load source => exact hw.loadFrom ho source
      | _ => exact (hedit trivial).elim

/-- In every world that has come about by moves from a new one: a chunk whose picture is still up to
date after further edits has had it since before them, and neither a type nor a damage in it nor a
visible face, were it computed afresh, has changed. After a reset or a successful load no chunk has a
picture, also none that is made later in a slot of an earlier one, until a picture is marked. -/
theorem run_new_pictures (r : Registry) (seed : Int64) (id : String) (createdAt : Data.Timestamp)
    (compression : String) (moves : List Move) :
    let w := Move.run moves (.new seed id createdAt compression)
    (∀ edits : List Move, (∀ m ∈ edits, m.IsEdit) →
        let w' := Move.run edits w
        ∀ (c : Coord) (d' : ChunkData), w'.chunk? c = some d' → d'.chunk.cached = true →
          ∃ d, w.chunk? c = some d ∧ d.chunk.cached = true
            ∧ (∀ l, (d'.chunk.cell l).kind = (d.chunk.cell l).kind
                ∧ (d'.chunk.cell l).damage = (d.chunk.cell l).damage)
            ∧ ∀ p : Coord, p.parent = c →
                ((w'.refresh p).visibleFaces r p).1 = ((w.refresh p).visibleFaces r p).1)
      ∧ ∀ later : List Move, (∀ c, .markCached c ∉ later) → ∀ (c : Coord) (d : ChunkData),
          ((Move.run later w.reset).chunk? c = some d → d.chunk.cached = false)
            ∧ ∀ source, (w.loadFrom source).1 = .ok () →
                (Move.run later (w.loadFrom source).2).chunk? c = some d →
                d.chunk.cached = false := by
  intro w
  have ho : w.Owned := (owned_new seed id createdAt compression).run moves
  constructor
  · intro edits hedits w' c d' hd' hcached
    have ho' : w'.Owned := ho.run edits
    have hkept : w'.isCached c = true := by
      rw [isCached, hd']
      exact hcached
    obtain ⟨hbefore, hcontent, hfaces⟩ := KeepsPictures.run (r := r) ho hedits c hkept
    cases hd : w.chunk? c with
    | none =>
      rw [isCached, hd] at hbefore
      cases hbefore
    | some d =>
      rw [isCached, hd] at hbefore
      have hplaces : d'.chunk.content = d.chunk.content := by
        rw [contentOf, contentOf, hd, hd'] at hcontent
        exact Option.some.inj hcontent
      refine ⟨d, rfl, hbefore, fun l => ?_, fun p hp => ?_⟩
      · exact ⟨congrArg Content.kind (congrFun hplaces l),
          congrArg Content.damage (congrFun hplaces l)⟩
      · rw [visibleFaces_refresh ho', visibleFaces_refresh ho, hfaces p hp]
  · have hundrawn : ∀ {u : World} {c : Coord} {d : ChunkData}, u.Undrawn → u.chunk? c = some d →
        d.chunk.cached = false := by
      intro u c d hu hd
      have hc := hu c
      rw [isCached, hd] at hc
      exact hc
    intro later hlater c d
    refine ⟨fun hd => ?_, fun source hok hd => ?_⟩
    · exact hundrawn ((undrawn_reset w).run ho.reset hlater) hd
    · exact hundrawn ((undrawn_loadFrom ho hok).run (ho.loadFrom source) hlater) hd

/-- A chunk with a block in it that has been drawn, before and after a write two chunks away; and
chunks that are made after a reset and after a load. -/
theorem run_new_pictures_drawn :
    let w := Move.run [.act (.setBlock ⟨1, 2, 3⟩ stone), .markCached .origin] (.new 1 "" .zero "")
    let edits : List Move := [.act (.setBlock ⟨32, 0, 0⟩ stone)]
    let later : List Move := [.act (.setBlock ⟨1, 2, 3⟩ stone)]
    let empty := Save.MemoryArchive.empty.source
    (∀ m ∈ edits, m.IsEdit)
      ∧ (∃ d d', (Move.run edits w).chunk? .origin = some d' ∧ d'.chunk.cached = true
          ∧ w.chunk? .origin = some d ∧ d.chunk.cached = true
          ∧ ∀ l, (d'.chunk.cell l).kind = (d.chunk.cell l).kind)
      ∧ (∀ c, .markCached c ∉ later)
      ∧ (∃ d, (Move.run later w.reset).chunk? .origin = some d ∧ d.chunk.cached = false)
      ∧ (w.loadFrom empty).1 = .ok ()
      ∧ ∃ d, (Move.run later (w.loadFrom empty).2).chunk? .origin = some d
          ∧ d.chunk.cached = false := by
  have haway : ∀ q ∈ surroundings ⟨32, 0, 0⟩, q.parent ≠ .origin := by decide
  have hparent : (⟨1, 2, 3⟩ : Coord).parent = .origin := by decide
  revert haway hparent
  generalize (⟨1, 2, 3⟩ : Coord) = p
  generalize (⟨32, 0, 0⟩ : Coord) = q
  intro haway hparent w edits later empty
  -- A chunk in which something has been put is there.
  have hmade : ∀ {u : World}, u.Owned → ∃ d, (u.setBlock p stone).chunk? .origin = some d := by
    intro u hu
    have hstone : stone ≠ air := by decide
    have hkind := kind?_setBlock hu p stone p
    rw [if_pos rfl, if_neg hstone, kind?, block?_eq_chunk?, hparent] at hkind
    cases hd : (u.setBlock p stone).chunk? .origin with
    | some d => exact ⟨d, rfl⟩
    | none =>
      rw [hd] at hkind
      cases hkind
  have hnew := owned_new 1 "" .zero ""
  have hset := (edits_setBlock _ p stone).owned hnew
  have ho : w.Owned := hnew.run _
  have hedits : ∀ m ∈ edits, m.IsEdit := by simp [edits, Move.IsEdit]
  have hlater : ∀ c, .markCached c ∉ later := by simp [later]
  have hrun : ∀ u, Move.run later u = u.setBlock p stone := by
    intro u
    simp only [later, Move.run, List.foldl, Move.apply, Action.apply]
  have hload : (w.loadFrom empty).1 = .ok () := by
    have hparse : parseSave empty = .ok ⟨none, []⟩ := rfl
    exact (loadFrom_of_ok w hparse).1
  have hdrawn : w.isCached .origin = true := by
    obtain ⟨d, hd⟩ := hmade hnew
    simp only [w, Move.run, List.foldl, Move.apply, Action.apply]
    rw [isCached_markCached hset, if_pos rfl, hd]
    rfl
  have hkept : (Move.run edits w).isCached .origin = true := by
    simp only [edits, Move.run, List.foldl, Move.apply, Action.apply]
    exact (isCached_setBlock ho q stone .origin).mpr ⟨hdrawn, haway⟩
  obtain ⟨hpictures, hundrawn⟩ := run_new_pictures .builtin 1 "" .zero ""
    [.act (.setBlock p stone), .markCached .origin]
  refine ⟨hedits, ?_, hlater, ?_, hload, ?_⟩
  · cases hd' : (Move.run edits w).chunk? .origin with
    | none =>
      rw [isCached, hd'] at hkept
      cases hkept
    | some d' =>
      rw [isCached, hd'] at hkept
      obtain ⟨d, hd, hcached, hcells, -⟩ := hpictures edits hedits .origin d' hd' hkept
      exact ⟨d, d', rfl, hkept, hd, hcached, fun l => (hcells l).1⟩
  · obtain ⟨d, hd⟩ := hmade ho.reset
    rw [← hrun] at hd
    exact ⟨d, hd, (hundrawn later hlater _ d).1 hd⟩
  · obtain ⟨d, hd⟩ := hmade (ho.loadFrom empty)
    rw [← hrun] at hd
    exact ⟨d, hd, (hundrawn later hlater _ d).2 empty hload hd⟩

end World

end BlockWorld
