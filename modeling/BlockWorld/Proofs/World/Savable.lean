import BlockWorld.Proofs.World.Saving
/-!
Which worlds an archive without faults takes. Whether a world can be saved depends on nothing but the
coordinates that its megachunks carry, because only headers can be refused (`savable_iff`). Edits of a
world never change these coordinates; all they can do is to make a megachunk that was not there, and
the world stays savable if and only if those that were made fit into a header (`savable_of_claims`).

How the proof goes. A save writes the entries of the megachunks and the manifest. A sink that takes everything
refuses none of them (`writeMegachunks_of_takes`, `saveTo_of_takes`), so only encodings can fail
(`savable_iff_entries`), and of an encoding only the header (`entry_ok_iff_label`). This makes it a question
of coordinates, for which a world is seen as a function from coordinates to the labels that megachunks carry
(`label`). Each operation leaves that function alone or adds one value (`claim`, `label_ensureChunk`,
`label_setBlock`, `label_damageBlock`), and several of them add several (`foldl_claim`).
-/
namespace BlockWorld.World

open Grid Save Block

/-- A world that is saved into every archive without faults. -/
def Savable (w : World) : Prop :=
  ∀ (savedAt : Data.Timestamp) (a : MemoryArchive), a.Faultless →
    (w.saveTo savedAt MemoryArchive.sink a).2.1 = .ok ()

/-- The coordinate that a megachunk carries and writes into its header. -/
def label (w : World) (c : Coord) : Option Coord := (w.table c).map (·.coord)

/-! ## Labels decide -/

section Savable

variable {w : World}

section Takes

variable {σ : Type} {sink : Sink σ} {P : σ → Prop} (ht : sink.Takes P)
include ht

theorem writeMegachunks_of_takes {cs : List Coord} (hcs : ∀ c ∈ cs, ∃ data, w.entry c = .ok data) {s : σ}
    (hs : P s) : ∃ s', w.writeMegachunks sink cs s = (s', .ok ()) ∧ P s' := by
  induction cs generalizing s with
  | nil => exact ⟨s, rfl, hs⟩
  | cons c cs ih =>
    obtain ⟨data, hdata⟩ := hcs c List.mem_cons_self
    obtain ⟨hok, hs'⟩ := ht (EntryName.ofCoord c) data (EntryName.endsWith_ofCoord c) hs
    obtain ⟨s', hrun, hlast⟩ := ih (fun c' hc' => hcs c' (List.mem_cons_of_mem c hc')) hs'
    refine ⟨s', ?_, hlast⟩
    rw [writeMegachunks_cons, hdata, ← hrun]
    dsimp only
    generalize sink.write s (EntryName.ofCoord c) data = written at hok
    obtain ⟨s'', result⟩ := written
    cases hok
    rfl

theorem saveTo_of_takes (hw : ∀ c ∈ w.coords, ∃ data, w.entry c = .ok data) (savedAt : Data.Timestamp) {s : σ}
    (hs : P s) : (w.saveTo savedAt sink s).2.1 = .ok () ∧ P (w.saveTo savedAt sink s).1 := by
  obtain ⟨s', hrun, hs'⟩ := writeMegachunks_of_takes ht hw hs
  have hmanifest := ht Manifest.entryName (w.manifest savedAt).encode (by decide +kernel) hs'
  simp only [saveTo, writeEntries, hrun, Manifest.writeTo]
  generalize sink.write s' Manifest.entryName (w.manifest savedAt).encode = written at hmanifest
  obtain ⟨s'', result⟩ := written
  obtain ⟨hok, hlast⟩ := hmanifest
  cases hok
  exact ⟨rfl, hlast⟩

end Takes

/-- The entries of the megachunks are the only hurdle. -/
theorem savable_iff_entries :
    w.Savable ↔ ∀ c ∈ w.coords, ∃ data, w.entry c = .ok data := by
  constructor
  · intro h
    by_contra hnot
    obtain ⟨c, e, herror⟩ := saveTo_of_error w .zero hnot
    rw [h .zero .empty MemoryArchive.faultless_empty] at herror
    cases herror
  · intro h savedAt a ha
    exact (saveTo_of_takes MemoryArchive.takes_sink h savedAt ha).1

theorem entry_ok_iff_label {c k : Coord} (hk : w.label c = some k) :
    (∃ data, w.entry c = .ok data) ↔ ∃ header, Megachunk.encodeHeader k = .ok header := by
  rw [label, Option.map_eq_some_iff] at hk
  obtain ⟨m, hm, rfl⟩ := hk
  rw [entry_of_table hm]
  constructor
  · rintro ⟨data, hdata⟩
    obtain ⟨header, hheader, -⟩ := Megachunk.toList_encode hdata
    exact ⟨header, hheader⟩
  · rintro ⟨header, hheader⟩
    exact ⟨_, Megachunk.encode_of_ok hheader w.arena⟩

theorem mem_coords_iff_label (w : World) (c : Coord) :
    c ∈ w.coords ↔ (w.label c).isSome = true := by
  rw [mem_coords, label, Option.isSome_map]

/-- A world can be saved if and only if the coordinates of its megachunks fit into headers. -/
theorem savable_iff :
    w.Savable ↔ ∀ c k, w.label c = some k → ∃ header, Megachunk.encodeHeader k = .ok header := by
  rw [savable_iff_entries]
  constructor
  · intro h c k hk
    have hc : c ∈ w.coords := by simp [mem_coords_iff_label, hk]
    exact (entry_ok_iff_label hk).mp (h c hc)
  · intro h c hc
    rw [mem_coords_iff_label, Option.isSome_iff_exists] at hc
    obtain ⟨k, hk⟩ := hc
    exact (entry_ok_iff_label hk).mpr (h c k hk)

end Savable

/-! ## What edits do to labels -/

/-- The labels after a megachunk has been made, unless it was there. -/
def claim (labels : Coord → Option Coord) (mega c : Coord) : Option Coord :=
  if c = mega then some ((labels c).getD c) else labels c

theorem claim_of_isSome {labels : Coord → Option Coord} {mega : Coord}
    (h : (labels mega).isSome = true) : claim labels mega = labels := by
  funext c
  rw [claim]
  split
  · rename_i he
    obtain ⟨k, hk⟩ := Option.isSome_iff_exists.mp h
    rw [he, hk, Option.getD_some]
  · rfl

section Edits

variable (w : World)

theorem label_of_megachunks {w w' : World} (h : w'.megachunks = w.megachunks) :
    w'.label = w.label := by
  funext c
  simp only [label, table, h]

theorem label_isSome_of_handle? {c : Coord} {h : Nat} (hh : w.handle? c = some h) :
    (w.label c.parent).isSome = true := by
  rw [handle?_eq_table, Table.handle, Option.bind_eq_some_iff] at hh
  obtain ⟨m, hm, -⟩ := hh
  simp [label, hm]

/-- Reaching for a chunk makes its megachunk. -/
theorem label_ensureChunk (c : Coord) : (w.ensureChunk c).2.label = claim w.label c.parent := by
  cases hh : w.handle? c with
  | some h => rw [ensureChunk_of_some hh, claim_of_isSome (w.label_isSome_of_handle? hh)]
  | none =>
    funext m
    rw [ensureChunk_of_none hh, label, table_createChunk (table_ensureMegachunk_self w c.parent),
      claim]
    by_cases he : m = c.parent
    · subst he
      rw [Table.set_self, if_pos rfl, label]
      cases w.table c.parent <;> simp [Megachunk.empty]
    · rw [Table.set_other _ _ he, if_neg he, table_ensureMegachunk, label]
      split
      · rfl
      · rw [Table.set_other _ _ he]

/-- Putting a block makes its megachunk. -/
theorem label_setBlock (p : Coord) (id : BlockId) :
    (w.setBlock p id).label = claim w.label p.parent.parent := by
  rw [← label_ensureChunk]
  apply label_of_megachunks
  rw [setBlock, megachunks_refresh]
  rfl

theorem label_visibleFaces (r : Registry) (p : Coord) :
    (w.visibleFaces r p).2.label = w.label := by
  apply label_of_megachunks
  rw [visibleFaces]
  cases w.handle? p.parent <;> rfl

/-- Digging makes no megachunk: a block that breaks stands in one. -/
theorem label_damageBlock (r : Registry) (p : Coord) (amount : Float32) :
    (w.damageBlock r p amount).2.label = w.label := by
  rw [damageBlock]
  cases hstrike : strike r (w.block? p) amount with
  | none => rfl
  | damaged damage => cases w.handle? p.parent <;> rfl
  | broken =>
    have hlabel : (w.label p.parent.parent).isSome = true := by
      cases hh : w.handle? p.parent with
      | some h => exact w.label_isSome_of_handle? hh
      | none =>
        have hnone : w.block? p = none := by simp only [block?, chunk?, hh]
        rw [hnone, strike] at hstrike
        cases hstrike
    have hnote : ((w.setBlock p air).note (.blockBroken p)).label = (w.setBlock p air).label :=
      label_of_megachunks (sameStorage_note _ _).1
    rw [hnote, label_setBlock, claim_of_isSome hlabel]

theorem label_raycast (origin direction : Space.Point Float) (length : Float) (before : Bool) :
    (w.raycast origin direction length before).2.label = w.label := by
  apply label_of_megachunks
  rw [raycast]
  split <;> rfl

theorem saveTo_megachunks {σ : Type} (savedAt : Data.Timestamp) (sink : Sink σ) (s : σ) :
    (w.saveTo savedAt sink s).2.2.megachunks = w.megachunks := by
  rw [saveTo]
  split <;> rfl

end Edits

/-- The labels after several megachunks have been made. -/
theorem foldl_claim (labels : Coord → Option Coord) (ms : List Coord) (c : Coord) :
    ms.foldl claim labels c
      = if (labels c).isSome = true then labels c else if c ∈ ms then some c else none := by
  induction ms generalizing labels with
  | nil => cases h : labels c <;> simp [h]
  | cons m ms ih =>
    rw [List.foldl_cons, ih]
    by_cases he : c = m
    · subst he
      cases h : labels c <;> simp [claim, h]
    · simp [claim, he]

/-- A savable world stays savable under new megachunks if and only if each of them fits into a
header. -/
theorem savable_of_claims {w w' : World} {ms : List Coord} (hw : w.Savable)
    (h : w'.label = ms.foldl claim w.label) (hms : ∀ m ∈ ms, m.Negatable) :
    w'.Savable ↔ ∀ m ∈ ms, m.InRange ∨ m ∈ w.coords := by
  rw [savable_iff, h]
  constructor
  · intro hsave m hm
    by_cases hold : m ∈ w.coords
    · exact .inr hold
    · rw [mem_coords_iff_label] at hold
      have hlabel : ms.foldl claim w.label m = some m := by
        rw [foldl_claim, if_neg hold, if_pos hm]
      exact .inl ((Megachunk.encodeHeader_ok_iff (hms m hm)).mp (hsave m m hlabel))
  · intro hrange c k hk
    rw [foldl_claim] at hk
    split at hk
    · exact savable_iff.mp hw c k hk
    · rename_i hnew
      split at hk
      · rename_i hc
        obtain rfl := Option.some.inj hk
        rw [← mem_coords_iff_label] at hnew
        exact (Megachunk.encodeHeader_ok_iff (hms c hc)).mpr ((hrange c hc).resolve_right hnew)
      · cases hk

end BlockWorld.World
