import Mathlib.Logic.Function.Basic
import BlockWorld.Proofs.Megachunk
/-!
Who owns which slot. Megachunks, looked up by their coordinates, hold handles into one arena.
`Ownership` says that this is a one-to-one affair: every handle at a place is in use, no two places
share a handle, and every slot in use is held by some place.

Megachunks are added empty, get handles that the arena has just handed out, and are removed with all
their slots. For each of these steps there is a lemma that ownership is kept, and one that says what
the step does to the chunk seen at each place. Everything that a world does to its megachunks is made
of these steps.

How the proof goes. A world is seen here as a function from coordinates to megachunks (`Table`), so that a
step is one `set` and the look-up afterwards is at the same coordinate or at another one (`handle_set_self`,
`handle_set_other`). Each step is first described by the handles that it leaves (`handle_addEmpty`,
`handle_put`, `handle_remove`). Ownership speaks of handles and of the arena only, and it follows from the two
descriptions, as do the chunks. A handle that was just handed out was vacant, and so no place had it; and the
handles of a megachunk that is removed are distinct, so that the arena takes all of them back (`handles_of`,
`isAllocated_freeAll`).
-/
namespace BlockWorld

open Grid

/-- Megachunks by their coordinates. -/
abbrev Table := Coord → Option Megachunk

namespace Table

/-- The handle at a place of a megachunk. -/
def handle (ms : Table) (c : Coord) (l : Local) : Option Nat := (ms c).bind (·.handle? l)

/-- The chunk at a place of a megachunk. -/
def chunk (ms : Table) (a : Arena) (c : Coord) (l : Local) : Option ChunkData :=
  (ms.handle c l).bind a.get?

/-- The table with another megachunk, or none, at a coordinate. -/
def set (ms : Table) (c : Coord) (m : Option Megachunk) : Table := Function.update ms c m

@[simp] theorem set_self (ms : Table) (c : Coord) (m : Option Megachunk) : ms.set c m c = m :=
  Function.update_self ..

theorem set_other (ms : Table) {c c' : Coord} (m : Option Megachunk) (hc : c' ≠ c) :
    ms.set c m c' = ms c' :=
  Function.update_of_ne hc ..

theorem set_set (ms : Table) (c : Coord) (m m' : Option Megachunk) :
    (ms.set c m).set c m' = ms.set c m' :=
  Function.update_idem ..

theorem set_eq_self {ms : Table} {c : Coord} {m : Option Megachunk} (hc : ms c = m) :
    ms.set c m = ms := by
  rw [← hc]
  exact Function.update_eq_self c ms

theorem handle_set_self (ms : Table) (c : Coord) (m : Option Megachunk) (l : Local) :
    (ms.set c m).handle c l = m.bind (·.handle? l) := by
  rw [handle, set_self]

theorem handle_set_other (ms : Table) {c c' : Coord} (m : Option Megachunk) (hc : c' ≠ c)
    (l : Local) : (ms.set c m).handle c' l = ms.handle c' l := by
  rw [handle, handle, set_other ms m hc]

end Table

/-- Every slot in use is held by exactly one place, and every handle at a place is in use. The
megachunks know their own coordinates and count their chunks. -/
structure Ownership (ms : Table) (a : Arena) : Prop where
  sound : a.Sound
  keyed : ∀ c m, ms c = some m → m.coord = c
  counted : ∀ c m, ms c = some m → m.count = m.occupied.length
  held : ∀ c l h, ms.handle c l = some h → a.isAllocated h = true
  unshared : ∀ c l c' l' h, ms.handle c l = some h → ms.handle c' l' = some h → c = c' ∧ l = l'
  owned : ∀ h, a.isAllocated h = true → ∃ c l, ms.handle c l = some h

namespace Ownership

variable {ms : Table} {a a' : Arena} {c c' : Coord} {l l' : Local} {m : Megachunk} {h : Nat}

/-- The chunk at a place is what the slot of its handle holds. -/
theorem chunk_eq (ho : Ownership ms a) (c : Coord) (l : Local) :
    ms.chunk a c l = (ms.handle c l).map a.slot := by
  rw [Table.chunk]
  cases hh : ms.handle c l with
  | none => rfl
  | some h =>
    have hused := ho.held c l h hh
    simp [Arena.get?, hused]

/-! ## No megachunks -/

/-- An arena whose slots are all vacant belongs to nobody. -/
theorem none (hs : a.Sound) (hv : ∀ h, a.isAllocated h = false) : Ownership (fun _ => .none) a where
  sound := hs
  keyed c m hm := by cases hm
  counted c m hm := by cases hm
  held c l h hh := by cases hh
  unshared c l c' l' h hh := by cases hh
  owned h hh := by
    rw [hv h] at hh
    cases hh

/-! ## An empty megachunk -/

/-- Adding an empty megachunk changes no handle. -/
theorem handle_addEmpty (hc : ms c = .none) (c' : Coord) (l' : Local) :
    (ms.set c (some (.empty c))).handle c' l' = ms.handle c' l' := by
  by_cases he : c' = c
  · subst he
    rw [Table.handle_set_self, Table.handle, hc]
    exact Megachunk.handle?_empty c' l'
  · exact Table.handle_set_other ms _ he l'

/-- Adding an empty megachunk keeps ownership. -/
theorem addEmpty (ho : Ownership ms a) (hc : ms c = .none) :
    Ownership (ms.set c (some (.empty c))) a where
  sound := ho.sound
  keyed c' m hm := by
    by_cases he : c' = c
    · subst he
      rw [Table.set_self] at hm
      cases hm
      rfl
    · rw [Table.set_other ms _ he] at hm
      exact ho.keyed c' m hm
  counted c' m hm := by
    by_cases he : c' = c
    · subst he
      rw [Table.set_self] at hm
      cases hm
      rw [Megachunk.occupied_empty]
      rfl
    · rw [Table.set_other ms _ he] at hm
      exact ho.counted c' m hm
  held c' l' h hh := by
    rw [handle_addEmpty hc] at hh
    exact ho.held c' l' h hh
  unshared c₁ l₁ c₂ l₂ h h₁ h₂ := by
    rw [handle_addEmpty hc] at h₁ h₂
    exact ho.unshared c₁ l₁ c₂ l₂ h h₁ h₂
  owned h hh := by
    obtain ⟨c', l', hl⟩ := ho.owned h hh
    exact ⟨c', l', by rw [handle_addEmpty hc, hl]⟩

/-- Adding an empty megachunk adds no chunk. -/
theorem chunk_addEmpty (hc : ms c = .none) (c' : Coord) (l' : Local) :
    (ms.set c (some (.empty c))).chunk a c' l' = ms.chunk a c' l' := by
  rw [Table.chunk, Table.chunk, handle_addEmpty hc]

/-! ## A new chunk -/

/-- Putting a handle changes the handle at that place only. -/
theorem handle_put (hc : ms c = some m) (c' : Coord) (l' : Local) :
    (ms.set c (some (m.place l h))).handle c' l'
      = if c' = c ∧ l' = l then some h else ms.handle c' l' := by
  by_cases he : c' = c
  · subst he
    rw [Table.handle_set_self, Table.handle, hc]
    change (m.place l h).handle? l' = if c' = c' ∧ l' = l then some h else m.handle? l'
    rw [Megachunk.handle?_place]
    simp
  · rw [Table.handle_set_other ms _ he, if_neg fun hand => he hand.1]

/-- Putting a handle that has just been handed out at a free place keeps ownership. -/
theorem put (ho : Ownership ms a) (hc : ms c = some m) (hl : m.handle? l = .none)
    (hand : a.HandsOut h a') : Ownership (ms.set c (some (m.place l h))) a' where
  sound := hand.sound
  keyed c' m' hm := by
    by_cases he : c' = c
    · subst he
      rw [Table.set_self] at hm
      cases hm
      exact ho.keyed c' m hc
    · rw [Table.set_other ms _ he] at hm
      exact ho.keyed c' m' hm
  counted c' m' hm := by
    by_cases he : c' = c
    · subst he
      rw [Table.set_self] at hm
      cases hm
      rw [Megachunk.count_place, Megachunk.length_occupied_place hl, ho.counted c' m hc]
    · rw [Table.set_other ms _ he] at hm
      exact ho.counted c' m' hm
  held c' l' k hk := by
    rw [handle_put hc] at hk
    rw [hand.isAllocated]
    split at hk
    · cases hk
      simp
    · simp [ho.held c' l' k hk]
  unshared c₁ l₁ c₂ l₂ k h₁ h₂ := by
    -- A handle from before is in use, and `h` was vacant.
    have hold : ∀ c₀ l₀, ms.handle c₀ l₀ = some k → k ≠ h := by
      rintro c₀ l₀ h₀ rfl
      have hused := ho.held c₀ l₀ k h₀
      rw [hand.vacant] at hused
      cases hused
    rw [handle_put hc] at h₁ h₂
    split at h₁ <;> split at h₂
    · rename_i he₁ he₂
      exact ⟨he₁.1.trans he₂.1.symm, he₁.2.trans he₂.2.symm⟩
    · exact absurd (Option.some.inj h₁).symm (hold c₂ l₂ h₂)
    · exact absurd (Option.some.inj h₂).symm (hold c₁ l₁ h₁)
    · exact ho.unshared c₁ l₁ c₂ l₂ k h₁ h₂
  owned k hk := by
    rw [hand.isAllocated] at hk
    by_cases hkh : k = h
    · exact ⟨c, l, by rw [handle_put hc, if_pos ⟨rfl, rfl⟩, hkh]⟩
    · obtain ⟨c₀, l₀, h₀⟩ := ho.owned k (by simpa [hkh] using hk)
      refine ⟨c₀, l₀, ?_⟩
      rw [handle_put hc, if_neg, h₀]
      rintro ⟨rfl, rfl⟩
      rw [Table.handle, hc] at h₀
      change m.handle? l₀ = some k at h₀
      rw [hl] at h₀
      cases h₀

/-- A new chunk is fresh, and all others stay as they are. -/
theorem chunk_put (ho : Ownership ms a) (hc : ms c = some m) (hl : m.handle? l = .none)
    (hand : a.HandsOut h a') (c' : Coord) (l' : Local) :
    (ms.set c (some (m.place l h))).chunk a' c' l'
      = if c' = c ∧ l' = l then some .fresh else ms.chunk a c' l' := by
  rw [(ho.put hc hl hand).chunk_eq, handle_put hc, ho.chunk_eq]
  split
  · rw [Option.map_some, hand.slot_self]
  · cases hh : ms.handle c' l' with
    | none => rfl
    | some k =>
      have hne : k ≠ h := by
        rintro rfl
        have hused := ho.held c' l' k hh
        rw [hand.vacant] at hused
        cases hused
      rw [Option.map_some, Option.map_some, hand.slot_other k hne]

/-! ## Changing a chunk -/

/-- Changing what a slot in use holds keeps ownership. -/
theorem modify (ho : Ownership ms a) (hh : a.isAllocated h = true) (f : ChunkData → ChunkData) :
    Ownership ms (a.modify h f) where
  sound := ho.sound.modify hh f
  keyed := ho.keyed
  counted := ho.counted
  held := ho.held
  unshared := ho.unshared
  owned := ho.owned

/-- Changing what the slot of a place holds changes the chunk at that place only. -/
theorem chunk_modify (ho : Ownership ms a) (hh : ms.handle c l = some h)
    (f : ChunkData → ChunkData) (c' : Coord) (l' : Local) :
    ms.chunk (a.modify h f) c' l'
      = if c' = c ∧ l' = l then (ms.chunk a c l).map f else ms.chunk a c' l' := by
  have hused := ho.held c l h hh
  rw [(ho.modify hused f).chunk_eq, ho.chunk_eq, ho.chunk_eq, hh]
  split
  · rename_i he
    rw [he.1, he.2, hh, Option.map_some, Option.map_some, Option.map_some,
      ho.sound.slot_modify hused, if_pos rfl]
  · rename_i he
    cases hk : ms.handle c' l' with
    | none => rfl
    | some k =>
      have hne : k ≠ h := by
        rintro rfl
        exact he (ho.unshared c' l' c l k hk hh)
      rw [Option.map_some, Option.map_some, ho.sound.slot_modify hused, if_neg hne]

/-! ## Removing a megachunk -/

/-- The handles of a megachunk are distinct and in use. -/
theorem handles_of (ho : Ownership ms a) (hc : ms c = some m) :
    (m.occupied.map (·.2)).Nodup ∧ ∀ h ∈ m.occupied.map (·.2), a.isAllocated h = true := by
  have hin : ∀ l h, m.handle? l = some h → ms.handle c l = some h := by
    intro l h hl
    rw [Table.handle, hc]
    exact hl
  constructor
  · apply Megachunk.occupied_handles_nodup
    intro l k h hl hk
    exact (ho.unshared c l c k h (hin l h hl) (hin k h hk)).2
  · intro h hh
    obtain ⟨⟨l, k⟩, hmem, rfl⟩ := List.mem_map.mp hh
    exact ho.held c l k (hin l k (Megachunk.mem_occupied.mp hmem))

/-- A slot stays in use after the removal of a megachunk exactly if none of its places holds it. -/
theorem isAllocated_freeAll (ho : Ownership ms a) (hc : ms c = some m) (h : Nat) :
    (Megachunk.freeAll a (m.occupied.map (·.2))).1.isAllocated h = true
      ↔ a.isAllocated h = true ∧ ∀ l, ms.handle c l ≠ some h := by
  obtain ⟨hnodup, hused⟩ := ho.handles_of hc
  obtain ⟨_, _, halloc, _, _⟩ := Megachunk.freeAll_spec _ a ho.sound hnodup hused
  have hmem : h ∈ m.occupied.map (·.2) ↔ ∃ l, ms.handle c l = some h := by
    constructor
    · intro hh
      obtain ⟨⟨l, k⟩, hmem, rfl⟩ := List.mem_map.mp hh
      refine ⟨l, ?_⟩
      rw [Table.handle, hc]
      exact Megachunk.mem_occupied.mp hmem
    · rintro ⟨l, hl⟩
      rw [Table.handle, hc] at hl
      exact List.mem_map.mpr ⟨(l, h), Megachunk.mem_occupied.mpr hl, rfl⟩
  rw [halloc, Bool.and_eq_true, decide_eq_true_iff, hmem, not_exists, and_comm]

theorem handle_remove (c' : Coord) (l' : Local) :
    (ms.set c .none).handle c' l' = if c' = c then .none else ms.handle c' l' := by
  split
  · rename_i he
    rw [he, Table.handle_set_self]
    rfl
  · rename_i he
    exact Table.handle_set_other ms _ he l'

/-- Removing a megachunk with all its slots keeps ownership. -/
theorem remove (ho : Ownership ms a) (hc : ms c = some m) :
    Ownership (ms.set c .none) (Megachunk.freeAll a (m.occupied.map (·.2))).1 where
  sound := by
    obtain ⟨hnodup, hused⟩ := ho.handles_of hc
    exact (Megachunk.freeAll_spec _ a ho.sound hnodup hused).2.1
  keyed c' m' hm := by
    by_cases he : c' = c
    · subst he
      rw [Table.set_self] at hm
      cases hm
    · rw [Table.set_other ms _ he] at hm
      exact ho.keyed c' m' hm
  counted c' m' hm := by
    by_cases he : c' = c
    · subst he
      rw [Table.set_self] at hm
      cases hm
    · rw [Table.set_other ms _ he] at hm
      exact ho.counted c' m' hm
  held c' l' h hh := by
    rw [handle_remove] at hh
    split at hh
    · cases hh
    · rename_i he
      refine (ho.isAllocated_freeAll hc h).mpr ⟨ho.held c' l' h hh, fun l hl => ?_⟩
      exact he (ho.unshared c' l' c l h hh hl).1
  unshared c₁ l₁ c₂ l₂ h h₁ h₂ := by
    rw [handle_remove] at h₁ h₂
    split at h₁
    · cases h₁
    · split at h₂
      · cases h₂
      · exact ho.unshared c₁ l₁ c₂ l₂ h h₁ h₂
  owned h hh := by
    obtain ⟨hused, hnot⟩ := (ho.isAllocated_freeAll hc h).mp hh
    obtain ⟨c', l', hl⟩ := ho.owned h hused
    refine ⟨c', l', ?_⟩
    rw [handle_remove, if_neg, hl]
    rintro rfl
    exact hnot l' hl

/-- Removing a megachunk removes its chunks and leaves all others as they are. -/
theorem chunk_remove (ho : Ownership ms a) (hc : ms c = some m) (c' : Coord) (l' : Local) :
    (ms.set c .none).chunk (Megachunk.freeAll a (m.occupied.map (·.2))).1 c' l'
      = if c' = c then .none else ms.chunk a c' l' := by
  obtain ⟨hnodup, hused⟩ := ho.handles_of hc
  obtain ⟨_, _, _, hslot, _⟩ := Megachunk.freeAll_spec _ a ho.sound hnodup hused
  rw [(ho.remove hc).chunk_eq, handle_remove, ho.chunk_eq, funext hslot]
  split <;> rfl

end Ownership

end BlockWorld
