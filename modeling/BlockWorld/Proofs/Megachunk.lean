import Mathlib.Data.List.FinRange
import BlockWorld.Megachunk.Basic
import BlockWorld.Proofs.Arena
/-!
Megachunks seen through the handle at each place. `handle?_place` says what putting a handle does to
this view, `occupied_eq` reads the list of occupied places off it, and `freeAll_spec` follows the
release of a megachunk through the arena: with distinct handles in use no handle is refused, and
exactly their slots become vacant.

How the proof goes. The places of a cube are listed once, in the order of their numbers (`Grid.Local.all`),
and the number of a place is one-to-one (`Grid.Local.index_injective`). So what a megachunk lists is a filter
of that list, and putting a handle at a free place adds one item to it (`length_filterMap_gain`,
`length_occupied_place`). `freeAll_spec` is an induction on the handles. Its hypotheses are kept by the
release of the first: the others are still in use, because they differ from it.
-/
namespace BlockWorld

open Grid

/-! ## All places of a cube -/

/-- The places of a cube, in the order of their numbers. -/
def Grid.Local.all : List Local := (List.finRange volume).map Local.ofIndex

theorem Grid.Local.ofIndex_injective : Function.Injective Local.ofIndex :=
  Function.LeftInverse.injective Local.index_ofIndex

theorem Grid.Local.index_injective : Function.Injective Local.index :=
  Function.LeftInverse.injective Local.ofIndex_index

theorem Grid.Local.mem_all (l : Local) : l ∈ Local.all :=
  List.mem_map.mpr ⟨l.index, List.mem_finRange _, Local.ofIndex_index l⟩

theorem Grid.Local.all_nodup : Local.all.Nodup :=
  (List.nodup_finRange volume).map Local.ofIndex_injective

namespace Megachunk

/-! ## Handles by place -/

theorem handle?_eq_getElem (m : Megachunk) (l : Local) (hl : l.index.val < volume) :
    m.handle? l = m.slots[l.index.val] := rfl

@[simp] theorem handle?_empty (c : Coord) (l : Local) : (empty c).handle? l = none := by
  simp [handle?, empty, Vector.get]

/-- Putting a handle changes the handle at that place only. -/
theorem handle?_place (m : Megachunk) (l : Local) (h : Nat) (k : Local) :
    (m.place l h).handle? k = if k = l then some h else m.handle? k := by
  rw [handle?_eq_getElem _ k k.index.isLt, handle?_eq_getElem m k k.index.isLt, place,
    Vector.getElem_set]
  by_cases hk : k = l
  · simp [hk]
  · have hne : ¬ l.index.val = k.index.val := fun he =>
      hk (Local.index_injective (Fin.ext he)).symm
    simp [hk, hne]

@[simp] theorem coord_place (m : Megachunk) (l : Local) (h : Nat) : (m.place l h).coord = m.coord :=
  rfl

@[simp] theorem count_place (m : Megachunk) (l : Local) (h : Nat) :
    (m.place l h).count = m.count + 1 := rfl

/-! ## Occupied places -/

/-- The occupied places are those with a handle, in the order of all places. -/
theorem occupied_eq (m : Megachunk) :
    m.occupied = Local.all.filterMap fun l => (m.handle? l).map fun h => (l, h) := by
  rw [occupied, Local.all, List.filterMap_map]
  apply List.filterMap_congr
  intro i _
  simp [handle?_eq_getElem]

theorem mem_occupied {m : Megachunk} {l : Local} {h : Nat} :
    (l, h) ∈ m.occupied ↔ m.handle? l = some h := by
  rw [occupied_eq, List.mem_filterMap]
  constructor
  · rintro ⟨k, _, hk⟩
    obtain ⟨g, hg, he⟩ := Option.map_eq_some_iff.mp hk
    obtain ⟨rfl, rfl⟩ := Prod.mk.injEq .. ▸ he
    exact hg
  · intro hl
    exact ⟨l, Local.mem_all l, by rw [hl]; rfl⟩

@[simp] theorem occupied_empty (c : Coord) : (empty c).occupied = [] := by
  rw [occupied_eq, List.filterMap_eq_nil_iff]
  intro l _
  rw [handle?_empty]
  rfl

/-- A list without repetitions gives one item more when a function gains a value at one of its
members. -/
theorem length_filterMap_gain {α β : Type} {f g : α → Option β} {x : α} (hf : f x = none)
    (hg : (g x).isSome) (hsame : ∀ y, y ≠ x → g y = f y) :
    ∀ (xs : List α), xs.Nodup → x ∈ xs → (xs.filterMap g).length = (xs.filterMap f).length + 1
  | [], _, hx => by cases hx
  | y :: ys, hn, hx => by
      obtain ⟨hy, hys⟩ := List.nodup_cons.mp hn
      by_cases hxy : y = x
      · -- The rest of the list does not hold `x`, so both functions agree on it.
        subst hxy
        obtain ⟨b, hb⟩ := Option.isSome_iff_exists.mp hg
        have hrest : ys.filterMap g = ys.filterMap f :=
          List.filterMap_congr fun z hz => hsame z fun he => hy (he ▸ hz)
        rw [List.filterMap_cons_some hb, List.filterMap_cons_none hf, hrest, List.length_cons]
      · have hmem : x ∈ ys := (List.mem_cons.mp hx).resolve_left fun he => hxy he.symm
        have ih := length_filterMap_gain hf hg hsame ys hys hmem
        cases hfy : f y with
        | none =>
          rw [List.filterMap_cons_none hfy, List.filterMap_cons_none ((hsame y hxy).trans hfy), ih]
        | some b =>
          rw [List.filterMap_cons_some hfy, List.filterMap_cons_some ((hsame y hxy).trans hfy),
            List.length_cons, List.length_cons, ih]

/-- Putting a handle at a free place adds one occupied place. -/
theorem length_occupied_place {m : Megachunk} {l : Local} (hl : m.handle? l = none) (h : Nat) :
    (m.place l h).occupied.length = m.occupied.length + 1 := by
  rw [occupied_eq, occupied_eq]
  apply length_filterMap_gain (x := l)
  · rw [hl]
    rfl
  · rw [handle?_place, if_pos rfl]
    rfl
  · intro k hk
    rw [handle?_place, if_neg hk]
  · exact Local.all_nodup
  · exact Local.mem_all l

/-- The handles of a megachunk are distinct when no two places share one. -/
theorem occupied_handles_nodup {m : Megachunk}
    (hu : ∀ l k h, m.handle? l = some h → m.handle? k = some h → l = k) :
    (m.occupied.map (·.2)).Nodup := by
  rw [occupied_eq, List.map_filterMap]
  apply List.Nodup.filterMap
  · intro l k h hl hk
    simp only [Option.mem_def, Option.map_map, Option.map_eq_some_iff, Function.comp_apply] at hl hk
    obtain ⟨g, hg, rfl⟩ := hl
    obtain ⟨g', hg', rfl⟩ := hk
    exact hu l k _ hg hg'
  · exact Local.all_nodup

/-! ## Release -/

/-- Freeing distinct slots in use: none is refused, exactly these become vacant, and no slot changes
what it holds. -/
theorem freeAll_spec : ∀ (hs : List Nat) (a : Arena), a.Sound → hs.Nodup →
    (∀ h ∈ hs, a.isAllocated h = true) →
    (freeAll a hs).2 = [] ∧ (freeAll a hs).1.Sound ∧
      (∀ k, (freeAll a hs).1.isAllocated k = (decide (k ∉ hs) && a.isAllocated k)) ∧
      (∀ k, (freeAll a hs).1.slot k = a.slot k) ∧ (freeAll a hs).1.size = a.size
  | [], a, hs, _, _ => by simp [freeAll, hs]
  | h :: rest, a, hs, hn, hused => by
      obtain ⟨hh, hrest⟩ := List.nodup_cons.mp hn
      have hin : a.isAllocated h = true := hused h List.mem_cons_self
      have hfree : a.freeHandle h = .ok (a.release h) := by
        rw [Arena.freeHandle, Arena.check_natCast hin]
        rfl
      have hused' : ∀ k ∈ rest, (a.release h).isAllocated k = true := by
        intro k hk
        have hne : k ≠ h := fun he => hh (he ▸ hk)
        rw [Arena.isAllocated_release, hused k (List.mem_cons_of_mem _ hk)]
        simpa using hne
      obtain ⟨hbad, hsound, halloc, hslot, hsize⟩ :=
        freeAll_spec rest (a.release h) (hs.release hin) hrest hused'
      simp only [freeAll, hfree]
      refine ⟨hbad, hsound, ?_, ?_, ?_⟩
      · intro k
        rw [halloc, Arena.isAllocated_release]
        by_cases hk : k = h
        · simp [hk]
        · have hne : (k != h) = true := by simpa using hk
          simp [hk, hne]
      · intro k
        rw [hslot, Arena.slot_release]
      · rw [hsize, Arena.size_release]

end Megachunk

end BlockWorld
