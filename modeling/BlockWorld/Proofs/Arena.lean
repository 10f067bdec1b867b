import Mathlib.Data.List.Nodup
import BlockWorld.Arena
/-!
What the arena keeps. An arena is seen through four look-ups: which slots are handed out, what each
slot holds, which slots are free and how many are handed out. `Sound` says how these belong together,
and every operation is described by what it does to them: handing out a slot gives one that was
vacant and is now fresh, and no operation but `modify` ever changes what another slot holds.

How the proof goes. There is one lemma for each look-up after each operation, and `Sound` follows from these
without opening an operation again. Handing out has two cases. If the free list has a slot, this one is wiped
and marked (`Sound.allocate_reused`). If not, the arena grows by one slot; its page may be new, and then it
starts behind all others, where nobody has written (`slot_allocate_grown`, `Sound.allocate_grown`). `HandsOut`
says what both have in common, and `Sound.allocate` gives it for either. Marks and the counter meet in two
lemmas on arrays of marks: setting one that was not set raises the number of those that are by one
(`count_setIfInBounds_true`), clearing one lowers it (`count_setIfInBounds_false`).
-/
namespace BlockWorld.Arena

/-! ## Looking at slots -/

@[simp] theorem allocated_modify (a : Arena) (h : Nat) (f : ChunkData → ChunkData) :
    (a.modify h f).allocated = a.allocated := rfl

@[simp] theorem free_modify (a : Arena) (h : Nat) (f : ChunkData → ChunkData) :
    (a.modify h f).free = a.free := rfl

@[simp] theorem live_modify (a : Arena) (h : Nat) (f : ChunkData → ChunkData) :
    (a.modify h f).live = a.live := rfl

@[simp] theorem size_modify (a : Arena) (h : Nat) (f : ChunkData → ChunkData) :
    (a.modify h f).size = a.size := rfl

@[simp] theorem isAllocated_modify (a : Arena) (h k : Nat) (f : ChunkData → ChunkData) :
    (a.modify h f).isAllocated k = a.isAllocated k := rfl

@[simp] theorem pages_size_modify (a : Arena) (h : Nat) (f : ChunkData → ChunkData) :
    (a.modify h f).pages.size = a.pages.size := by
  simp [modify]

/-- Changing a slot leaves all others as they are. -/
theorem slot_modify_other (a : Arena) {h k : Nat} (f : ChunkData → ChunkData) (hne : k ≠ h) :
    (a.modify h f).slot k = a.slot k := by
  simp only [slot, modify, Array.getElem?_modify]
  by_cases hq : h / pageSize = k / pageSize
  · -- On the same page the two slots have different numbers.
    have hr : h % pageSize ≠ k % pageSize := by
      intro he
      apply hne
      rw [← Nat.div_add_mod k pageSize, ← Nat.div_add_mod h pageSize, hq, he]
    rw [if_pos hq]
    cases a.pages[k / pageSize]? with
    | none => rfl
    | some page => simp [Vector.get, Array.getElem_modify, hr]
  · rw [if_neg hq]

/-- Changing a slot that lies on a page changes what it holds. -/
theorem slot_modify_self (a : Arena) {h : Nat} (f : ChunkData → ChunkData)
    (hpage : h / pageSize < a.pages.size) : (a.modify h f).slot h = f (a.slot h) := by
  simp only [slot, modify, Array.getElem?_modify, if_pos]
  rw [Array.getElem?_eq_getElem hpage]
  simp [Vector.get, Array.getElem_modify]

/-- Only slots of the arena are handed out. -/
theorem lt_size_of_isAllocated {a : Arena} {h : Nat} (hh : a.isAllocated h = true) :
    h < a.size := by
  by_contra hlt
  have hnone : a.allocated[h]? = none := Array.getElem?_eq_none (Nat.le_of_not_lt hlt)
  simp [isAllocated, Array.getD_eq_getD_getElem?, hnone] at hh

/-! ## Soundness -/

/-- How the parts of an arena belong together: the free list holds every vacant slot once, the
counter counts the slots handed out, the pages have room for all slots and no more, and slots that
were never handed out are fresh. -/
structure Sound (a : Arena) : Prop where
  pages_size : a.pages.size = (a.size + 15) / pageSize
  free_nodup : a.free.Nodup
  mem_free : ∀ h, h ∈ a.free ↔ h < a.size ∧ a.isAllocated h = false
  live_eq : a.live = a.allocated.count true
  fresh : ∀ h, a.size ≤ h → a.slot h = .fresh

/-- An arena without slots is sound. -/
theorem sound_empty : Sound empty where
  pages_size := rfl
  free_nodup := List.nodup_nil
  mem_free h := by simp [empty, size]
  live_eq := rfl
  fresh h _ := by simp [empty, slot]

/-- Every slot of a sound arena lies on a page. -/
theorem Sound.page_lt {a : Arena} (hs : a.Sound) {h : Nat} (hh : h < a.size) :
    h / pageSize < a.pages.size := by
  rw [hs.pages_size]
  unfold pageSize
  omega

/-- Changing a slot that has been handed out keeps an arena sound. -/
theorem Sound.modify {a : Arena} (hs : a.Sound) {h : Nat} (hh : a.isAllocated h = true)
    (f : ChunkData → ChunkData) : (a.modify h f).Sound where
  pages_size := by rw [pages_size_modify, hs.pages_size, size_modify]
  free_nodup := hs.free_nodup
  mem_free := hs.mem_free
  live_eq := hs.live_eq
  fresh k hk := by
    have hlt := lt_size_of_isAllocated hh
    rw [size_modify] at hk
    rw [slot_modify_other a f (by omega), hs.fresh k hk]

/-- What a change of a slot in use does to it. -/
theorem Sound.slot_modify {a : Arena} (hs : a.Sound) {h : Nat} (hh : a.isAllocated h = true)
    (f : ChunkData → ChunkData) (k : Nat) :
    (a.modify h f).slot k = if k = h then f (a.slot h) else a.slot k := by
  split
  · rename_i he
    subst he
    exact slot_modify_self a f (hs.page_lt (lt_size_of_isAllocated hh))
  · rename_i hne
    exact slot_modify_other a f hne

/-! ## Handing out a slot -/

/-- A slot is handed out after another was marked in use exactly if it is that one or was before. -/
theorem getD_setIfInBounds_true {xs : Array Bool} {h : Nat} (hh : h < xs.size) (k : Nat) :
    (xs.setIfInBounds h true).getD k false = (k == h || xs.getD k false) := by
  simp only [Array.getD_eq_getD_getElem?, Array.getElem?_setIfInBounds]
  by_cases he : h = k
  · subst he
    simp [hh]
  · have hne : (k == h) = false := by simpa using fun hk : k = h => he hk.symm
    simp [he, hne]

/-- Marking a vacant slot in use raises the number of slots in use by one. -/
theorem count_setIfInBounds_true {xs : Array Bool} {h : Nat} (hh : h < xs.size)
    (hv : xs.getD h false = false) : (xs.setIfInBounds h true).count true = xs.count true + 1 := by
  have hget : xs[h] = false := by
    rw [← hv]
    simp [Array.getD, hh]
  rw [Array.setIfInBounds, dif_pos hh, Array.count_set, hget]
  rfl

/-- What handing out a slot does to an arena. -/
structure HandsOut (a : Arena) (h : Nat) (a' : Arena) : Prop where
  vacant : a.isAllocated h = false
  isAllocated : ∀ k, a'.isAllocated k = (k == h || a.isAllocated k)
  slot_self : a'.slot h = .fresh
  slot_other : ∀ k, k ≠ h → a'.slot k = a.slot k
  sound : a'.Sound
  size_le : a.size ≤ a'.size

theorem HandsOut.isAllocated_self {a a' : Arena} {h : Nat} (hand : a.HandsOut h a') :
    a'.isAllocated h = true := by
  rw [hand.isAllocated, beq_self_eq_true, Bool.true_or]

/-- The slot on top of the free list is made fresh and handed out. -/
theorem Sound.allocate_reused {a : Arena} (hs : a.Sound) {h : Nat} {rest : List Nat}
    (hfree : a.free = h :: rest) : a.HandsOut h a.allocate.2 := by
  obtain ⟨hlt, hvacant⟩ := (hs.mem_free h).mp (by simp [hfree])
  have hpage : h / pageSize < a.pages.size := hs.page_lt hlt
  have hnodup : h ∉ rest ∧ rest.Nodup := by
    have hn := hs.free_nodup
    rw [hfree] at hn
    exact List.nodup_cons.mp hn
  have halloc : ∀ k, a.allocate.2.isAllocated k = (k == h || a.isAllocated k) := by
    intro k
    simp only [allocate, hfree, isAllocated_modify]
    exact getD_setIfInBounds_true hlt k
  have hslot : ∀ k, k ≠ h → a.allocate.2.slot k = a.slot k := by
    intro k hk
    simp only [allocate, hfree]
    rw [slot_modify_other _ _ hk]
    rfl
  have hsize : a.allocate.2.size = a.size := by simp [allocate, hfree, size]
  refine ⟨hvacant, halloc, ?_, hslot, ⟨?_, ?_, ?_, ?_, ?_⟩, Nat.le_of_eq hsize.symm⟩
  · simp only [allocate, hfree]
    exact slot_modify_self _ _ hpage
  · rw [hsize, ← hs.pages_size]
    simp [allocate, hfree]
  · simpa [allocate, hfree] using hnodup.2
  · -- The free list loses `h`, which is also the only slot that is no longer vacant.
    intro k
    have hmem := hs.mem_free k
    rw [hfree, List.mem_cons] at hmem
    rw [halloc, hsize]
    have hrest : a.allocate.2.free = rest := by simp [allocate, hfree]
    rw [hrest]
    by_cases hk : k = h
    · subst hk
      simp [hnodup.1]
    · simpa [hk] using hmem
  · simp only [allocate, hfree, live_modify, allocated_modify]
    rw [count_setIfInBounds_true hlt hvacant, hs.live_eq]
  · intro k hk
    rw [hsize] at hk
    rw [hslot k (by omega), hs.fresh k hk]

/-- Growing changes what no slot holds: a new page starts behind all pages from before, where slots
count as fresh. -/
theorem slot_allocate_grown {a : Arena} (hfree : a.free = []) (k : Nat) :
    a.allocate.2.slot k = a.slot k := by
  simp only [allocate, hfree, slot]
  by_cases hr : a.allocated.size % pageSize = 0
  · rw [if_pos hr, Array.getElem?_push]
    by_cases hk : k / pageSize = a.pages.size
    · have hnone : a.pages[k / pageSize]? = none := Array.getElem?_eq_none (Nat.le_of_eq hk.symm)
      rw [if_pos hk, hnone]
      simp [freshPage, Vector.get]
    · rw [if_neg hk]
  · rw [if_neg hr]

/-- With an empty free list the arena grows by one slot, which is handed out. -/
theorem Sound.allocate_grown {a : Arena} (hs : a.Sound) (hfree : a.free = []) :
    a.HandsOut a.size a.allocate.2 := by
  have hslot := slot_allocate_grown hfree
  have hvacant : a.isAllocated a.size = false := by
    simp [isAllocated, Array.getD_eq_getD_getElem?, size]
  have halloc : ∀ k, a.allocate.2.isAllocated k = (k == a.size || a.isAllocated k) := by
    intro k
    simp only [allocate, hfree, isAllocated, Array.getD_eq_getD_getElem?, Array.getElem?_push]
    by_cases hk : k = a.allocated.size
    · simp [hk, size]
    · have hne : (k == a.size) = false := by simpa [size] using hk
      simp [hk, hne]
  have hsize : a.allocate.2.size = a.size + 1 := by simp [allocate, hfree, size]
  refine ⟨hvacant, halloc, ?_, fun k _ => hslot k, ⟨?_, ?_, ?_, ?_, ?_⟩, by omega⟩
  · rw [hslot, hs.fresh a.size (Nat.le_refl _)]
  · -- A page is added exactly when the last one is full.
    rw [hsize]
    have hpages := hs.pages_size
    simp only [allocate, hfree]
    split
    · rename_i hr
      rw [Array.size_push, hpages]
      change a.size % pageSize = 0 at hr
      unfold pageSize at *
      omega
    · rename_i hr
      rw [hpages]
      change ¬ a.size % pageSize = 0 at hr
      unfold pageSize at *
      omega
  · simp [allocate, hfree]
  · intro k
    have hmem := hs.mem_free k
    have hnil : a.allocate.2.free = [] := by simp [allocate, hfree]
    rw [hnil, halloc, hsize]
    rw [hfree] at hmem
    by_cases hk : k = a.size
    · simp [hk]
    · have hiff : k < a.size + 1 ↔ k < a.size := by omega
      simpa [hk, hiff] using hmem
  · simp [allocate, hfree, hs.live_eq]
  · intro k hk
    rw [hsize] at hk
    rw [hslot, hs.fresh k (by omega)]

/-- Handing out a slot of a sound arena. -/
theorem Sound.allocate {a : Arena} (hs : a.Sound) : a.HandsOut a.allocate.1 a.allocate.2 := by
  cases hfree : a.free with
  | nil =>
    have hfst : a.allocate.1 = a.size := by simp [Arena.allocate, hfree, size]
    rw [hfst]
    exact hs.allocate_grown hfree
  | cons h rest =>
    have hfst : a.allocate.1 = h := by simp [Arena.allocate, hfree]
    rw [hfst]
    exact hs.allocate_reused hfree

theorem live_allocate (a : Arena) : a.allocate.2.live = a.live + 1 := by
  rw [allocate]
  split <;> rfl

theorem size_le_allocate (a : Arena) : a.size ≤ a.allocate.2.size := by
  rw [allocate]
  split <;> simp [size, modify]

/-! ## Taking slots back -/

/-- A slot is in use after another was marked vacant exactly if it was before and is not that one. -/
theorem getD_setIfInBounds_false (xs : Array Bool) (h k : Nat) :
    (xs.setIfInBounds h false).getD k false = (k != h && xs.getD k false) := by
  simp only [Array.getD_eq_getD_getElem?, Array.getElem?_setIfInBounds]
  by_cases he : h = k
  · subst he
    by_cases hh : h < xs.size <;> simp [hh]
  · have hne : (k != h) = true := by simpa using fun hk : k = h => he hk.symm
    simp [he, hne]

/-- Marking a slot in use as vacant lowers the number of slots in use by one. -/
theorem count_setIfInBounds_false {xs : Array Bool} {h : Nat} (hh : h < xs.size)
    (hv : xs.getD h false = true) : (xs.setIfInBounds h false).count true = xs.count true - 1 := by
  have hget : xs[h] = true := by
    rw [← hv]
    simp [Array.getD, hh]
  rw [Array.setIfInBounds, dif_pos hh, Array.count_set, hget]
  rfl

theorem isAllocated_release (a : Arena) (h k : Nat) :
    (a.release h).isAllocated k = (k != h && a.isAllocated k) :=
  getD_setIfInBounds_false a.allocated h k

@[simp] theorem size_release (a : Arena) (h : Nat) : (a.release h).size = a.size := by
  simp [release, size]

@[simp] theorem slot_release (a : Arena) (h k : Nat) : (a.release h).slot k = a.slot k := rfl

/-- Taking back a slot in use keeps an arena sound. -/
theorem Sound.release {a : Arena} (hs : a.Sound) {h : Nat} (hh : a.isAllocated h = true) :
    (a.release h).Sound where
  pages_size := by
    rw [size_release, ← hs.pages_size]
    rfl
  free_nodup := by
    have hnot : h ∉ a.free := by
      intro hmem
      have hv := ((hs.mem_free h).mp hmem).2
      rw [hh] at hv
      cases hv
    exact List.nodup_cons.mpr ⟨hnot, hs.free_nodup⟩
  mem_free k := by
    have hlt := lt_size_of_isAllocated hh
    have hmem := hs.mem_free k
    rw [isAllocated_release, size_release]
    change k ∈ h :: a.free ↔ _
    rw [List.mem_cons, hmem]
    by_cases hk : k = h
    · subst hk
      simp [hlt]
    · simp [hk]
  live_eq := by
    change a.live - 1 = (a.allocated.setIfInBounds h false).count true
    rw [count_setIfInBounds_false (lt_size_of_isAllocated hh) hh, hs.live_eq]
  fresh k hk := by
    rw [size_release] at hk
    rw [slot_release, hs.fresh k hk]

/-- A handle passes its check exactly if its slot is in use. -/
theorem check_natCast {a : Arena} {h : Nat} (hh : a.isAllocated h = true) :
    a.check h = .ok h := by
  have hlt := lt_size_of_isAllocated hh
  have hrange : ¬ ((h : Int) < 0 ∨ (a.size : Int) ≤ h) := by omega
  rw [check, if_neg hrange, Int.toNat_natCast, if_pos hh]

/-! ## Taking all slots back -/

@[simp] theorem size_clear (a : Arena) : a.clear.size = a.size := by
  simp [clear, size]

@[simp] theorem slot_clear (a : Arena) (k : Nat) : a.clear.slot k = a.slot k := rfl

@[simp] theorem isAllocated_clear (a : Arena) (k : Nat) : a.clear.isAllocated k = false := by
  simp [clear, isAllocated, Array.getD, Array.getElem_replicate]

theorem mem_allocatedSlots {a : Arena} {h : Nat} : h ∈ a.allocatedSlots ↔ a.isAllocated h = true := by
  rw [allocatedSlots, List.mem_filter, List.mem_range]
  constructor
  · exact And.right
  · intro hh
    exact ⟨lt_size_of_isAllocated hh, hh⟩

theorem allocatedSlots_nodup (a : Arena) : a.allocatedSlots.Nodup :=
  List.nodup_range.filter _

/-- Taking all slots back keeps an arena sound: every slot is on the free list then. -/
theorem Sound.clear {a : Arena} (hs : a.Sound) : a.clear.Sound where
  pages_size := by
    rw [size_clear, ← hs.pages_size]
    rfl
  free_nodup := by
    change (a.allocatedSlots.reverse ++ a.free).Nodup
    rw [List.nodup_append]
    refine ⟨List.nodup_reverse.mpr a.allocatedSlots_nodup, hs.free_nodup, ?_⟩
    rintro h hused k hfree rfl
    have hh := mem_allocatedSlots.mp (List.mem_reverse.mp hused)
    rw [((hs.mem_free h).mp hfree).2] at hh
    cases hh
  mem_free h := by
    rw [isAllocated_clear, size_clear]
    change h ∈ a.allocatedSlots.reverse ++ a.free ↔ _
    rw [List.mem_append, List.mem_reverse, mem_allocatedSlots, hs.mem_free]
    cases hh : a.isAllocated h with
    | true => simp [lt_size_of_isAllocated hh]
    | false => simp
  live_eq := by
    simp [Arena.clear, Array.count_replicate]
  fresh k hk := by
    rw [size_clear] at hk
    rw [slot_clear, hs.fresh k hk]

/-- The counter of a sound arena is the number of slots in use. -/
theorem Sound.live_eq_length {a : Arena} (hs : a.Sound) : a.live = a.allocatedSlots.length := by
  have hmarks : (List.range a.size).map a.isAllocated = a.allocated.toList := by
    apply List.ext_getElem
    · simp [size]
    · intro i hi hi'
      have hlt : i < a.allocated.size := by simpa using hi'
      simp [isAllocated, Array.getD, hlt]
  rw [hs.live_eq, ← Array.count_toList, ← hmarks, List.count, List.countP_map, allocatedSlots,
    ← List.countP_eq_length_filter]
  congr 1
  funext i
  simp

end BlockWorld.Arena
