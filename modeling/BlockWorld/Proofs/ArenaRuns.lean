import BlockWorld.Proofs.Arena
/-!
Arenas in use. Slots are handed out, taken back and written to in any order, and handles may be
anything: a bad one does nothing. Whatever has been done to an arena, it is sound (`sound_run`).
A list kept beside the arena says who holds what: a handle is on it from when it is given out until it
is given back. The arena keeps the same account with its marks, its free list and its counter
(`run_accounting`).

How the proof goes. A handle passes its check exactly if it is the number of a slot in use
(`check_eq_ok_iff`), so that each step is either one of the operations on a slot in use or nothing. Soundness
is then kept by a step (`Sound.apply`), and so is the statement that the list has the handles of the slots in
use, each once (`HeldAre.apply`); both hold after any steps by induction (`sound_run`, `heldAre_run`). The
counter is the length of the list, because both count the same slots (`HeldAre.length_eq`), and the free list
has what is left of all slots (`Sound.live_add_freeCount`). How large the arena becomes is read off the one
step that makes it larger (`size_allocate`).
-/
namespace BlockWorld.Arena

/-- What can be done to an arena. -/
inductive Step where
  | allocate
  | free (h : Int)
  | clear
  /-- Changes the chunk behind a handle. -/
  | write (h : Int) (f : ChunkData → ChunkData)

/-- The arena after a step. A bad handle changes nothing. -/
def Step.apply (a : Arena) : Step → Arena
  | .allocate => a.allocate.2
  | .free h => (a.freeHandle h).toOption.getD a
  | .clear => a.clear
  | .write h f =>
    match a.check h with
    | .ok k => a.modify k f
    | .error _ => a

/-- The arena after some steps from the beginning. -/
def run (steps : List Step) : Arena := steps.foldl Step.apply .empty

theorem isAllocated_of_check {a : Arena} {h : Int} {k : Nat} (hh : a.check h = .ok k) :
    a.isAllocated k = true := by
  unfold check at hh
  split at hh
  · cases hh
  · split at hh
    · rename_i hused
      obtain rfl := Except.ok.inj hh
      exact hused
    · cases hh

theorem Sound.apply {a : Arena} (hs : a.Sound) (step : Step) : (step.apply a).Sound := by
  cases step with
  | allocate => exact hs.allocate.sound
  | free h =>
    simp only [Step.apply, freeHandle]
    cases hh : a.check h with
    | error e => exact hs
    | ok k => exact hs.release (isAllocated_of_check hh)
  | clear => exact hs.clear
  | write h f =>
    simp only [Step.apply]
    cases hh : a.check h with
    | error e => exact hs
    | ok k => exact hs.modify (isAllocated_of_check hh) f

theorem sound_run (steps : List Step) : (run steps).Sound :=
  List.foldlRecOn steps Step.apply sound_empty fun _ hs step _ => hs.apply step

/-! ## Handles that are held -/

/-- The handles that are held after a step, if those were held before. -/
def Step.hold (a : Arena) (held : List Nat) : Step → List Nat
  | .allocate => a.allocate.1 :: held
  | .free h => held.filter fun k => (k : Int) ≠ h
  | .clear => []
  | .write _ _ => held

/-- The handles that some steps from the beginning have given out and not taken back. -/
def held (steps : List Step) : List Nat :=
  (steps.foldl (fun s step => (step.apply s.1, step.hold s.1 s.2)) (empty, [])).2

/-- The handles on a list are those of the slots in use. -/
structure HeldAre (a : Arena) (held : List Nat) : Prop where
  nodup : held.Nodup
  mem_iff : ∀ h, h ∈ held ↔ a.isAllocated h = true

theorem heldAre_empty : HeldAre empty [] where
  nodup := List.nodup_nil
  mem_iff h := by simp [empty, isAllocated]

/-- A handle passes its check exactly if it is the number of a slot in use. -/
theorem check_eq_ok_iff {a : Arena} {h : Int} {k : Nat} :
    a.check h = .ok k ↔ h = k ∧ a.isAllocated k = true := by
  constructor
  · intro hh
    refine ⟨?_, isAllocated_of_check hh⟩
    unfold check at hh
    split at hh
    · cases hh
    · rename_i hrange
      split at hh
      · obtain rfl := Except.ok.inj hh
        omega
      · cases hh
  · rintro ⟨rfl, hused⟩
    exact check_natCast hused

/-- A bad handle belongs to no slot in use. -/
theorem ne_of_check_error {a : Arena} {h : Int} {e : BadHandle} (hh : a.check h = .error e) {k : Nat}
    (hk : a.isAllocated k = true) : (k : Int) ≠ h := by
  rintro rfl
  rw [check_natCast hk] at hh
  cases hh

theorem HeldAre.apply {a : Arena} {held : List Nat} (hs : a.Sound) (hheld : HeldAre a held)
    (step : Step) : HeldAre (step.apply a) (step.hold a held) := by
  cases step with
  | allocate =>
    have hand := hs.allocate
    refine ⟨List.nodup_cons.mpr ⟨?_, hheld.nodup⟩, fun h => ?_⟩
    · rw [hheld.mem_iff, hand.vacant]
      exact Bool.false_ne_true
    · show h ∈ a.allocate.1 :: held ↔ a.allocate.2.isAllocated h = true
      rw [hand.isAllocated, List.mem_cons, hheld.mem_iff, Bool.or_eq_true, beq_iff_eq]
  | free h =>
    refine ⟨hheld.nodup.filter _, fun k => ?_⟩
    simp only [Step.hold, Step.apply, freeHandle, List.mem_filter, decide_eq_true_eq, hheld.mem_iff]
    -- A bad handle changes nothing in the arena, and it is not on the list that it is taken from.
    cases hh : a.check h with
    | error e => exact ⟨And.left, fun hk => ⟨hk, ne_of_check_error hh hk⟩⟩
    | ok g =>
      obtain ⟨rfl, -⟩ := check_eq_ok_iff.mp hh
      show _ ↔ (a.release g).isAllocated k = true
      rw [isAllocated_release, Bool.and_eq_true, bne_iff_ne, and_comm, Ne, Int.natCast_inj]
  | clear => exact ⟨List.nodup_nil, fun h => by simp [Step.hold, Step.apply]⟩
  | write h f =>
    refine ⟨hheld.nodup, fun k => ?_⟩
    simp only [Step.hold, Step.apply, hheld.mem_iff]
    cases a.check h <;> rfl

theorem HeldAre.foldl (steps : List Step) {a : Arena} {held : List Nat} (hs : a.Sound)
    (hheld : HeldAre a held) :
    HeldAre (steps.foldl Step.apply a)
      (steps.foldl (fun s step => (step.apply s.1, step.hold s.1 s.2)) (a, held)).2 := by
  induction steps generalizing a held with
  | nil => exact hheld
  | cons step steps ih => exact ih (hs.apply step) (hheld.apply hs step)

/-- The list beside the arena names the slots in use after any steps. -/
theorem heldAre_run (steps : List Step) : HeldAre (run steps) (held steps) :=
  HeldAre.foldl steps sound_empty heldAre_empty

/-! ## The account of an arena -/

theorem HeldAre.length_eq {a : Arena} {held : List Nat} (hs : a.Sound) (hheld : HeldAre a held) :
    a.live = held.length := by
  have hperm : held.Perm a.allocatedSlots :=
    (List.perm_ext_iff_of_nodup hheld.nodup a.allocatedSlots_nodup).mpr fun h => by
      rw [hheld.mem_iff, mem_allocatedSlots]
  rw [hs.live_eq_length, hperm.length_eq]

/-- Every slot is in use or free. -/
theorem Sound.live_add_freeCount {a : Arena} (hs : a.Sound) : a.live + a.freeCount = a.size := by
  have hfree : a.free.Perm ((List.range a.size).filter fun h => !a.isAllocated h) := by
    refine (List.perm_ext_iff_of_nodup hs.free_nodup (List.nodup_range.filter _)).mpr fun h => ?_
    rw [hs.mem_free, List.mem_filter, List.mem_range, Bool.not_eq_true']
  rw [hs.live_eq_length, freeCount, hfree.length_eq, allocatedSlots]
  have hparts := List.length_eq_length_filter_add (l := List.range a.size) a.isAllocated
  rw [List.length_range] at hparts
  exact hparts.symm

/-- Handing out a slot makes the arena larger, by one slot, only when no slot is free. -/
theorem size_allocate (a : Arena) :
    a.allocate.2.size = if a.free = [] then a.size + 1 else a.size := by
  cases hfree : a.free <;> simp [allocate, hfree, size, modify]

theorem size_apply (a : Arena) (step : Step) :
    (step.apply a).size = a.size
      ∨ step = .allocate ∧ a.free = [] ∧ (step.apply a).size = a.size + 1 := by
  cases step with
  | allocate =>
    have hsize := a.size_allocate
    by_cases hfree : a.free = []
    · rw [if_pos hfree] at hsize
      exact .inr ⟨rfl, hfree, hsize⟩
    · rw [if_neg hfree] at hsize
      exact .inl hsize
  | free h =>
    left
    simp only [Step.apply, freeHandle]
    cases a.check h with
    | error e => rfl
    | ok k => exact a.size_release k
  | clear => exact .inl a.size_clear
  | write h f =>
    left
    simp only [Step.apply]
    cases a.check h <;> rfl

theorem get_eq_error_iff {a : Arena} {h : Int} :
    (∃ e, a.get h = .error e) ↔ ¬∃ k : Nat, a.isAllocated k = true ∧ (k : Int) = h := by
  rw [get]
  cases hh : a.check h with
  | error e =>
    refine ⟨fun _ => ?_, fun _ => ⟨e, rfl⟩⟩
    rintro ⟨k, hk, he⟩
    exact ne_of_check_error hh hk he
  | ok k =>
    obtain ⟨rfl, hk⟩ := check_eq_ok_iff.mp hh
    refine ⟨?_, fun hnone => absurd ⟨k, hk, rfl⟩ hnone⟩
    rintro ⟨e, he⟩
    cases he

/-- Whatever steps have been taken, with any handles: the free list names each slot once that is not
held, and no other. The counter is the number of handles held, so that slots in use and free slots
are all slots. There is a page for every slot and none too many. One more step leaves the number of
slots as it is, or raises it by one if a slot is asked for while none is free. And a handle leads to
a chunk exactly if it is held. -/
theorem run_accounting (steps : List Step) :
    let a := run steps
    a.free.Nodup ∧ (∀ h, h ∈ a.free ↔ h < a.size ∧ h ∉ held steps)
      ∧ (held steps).Nodup ∧ (∀ h ∈ held steps, h < a.size)
      ∧ a.live = (held steps).length ∧ a.live + a.freeCount = a.size
      ∧ a.pages.size = (a.size + 15) / 16 ∧ (∀ h < a.size, h / 16 < a.pages.size)
      ∧ (∀ step : Step, (step.apply a).size = a.size
        ∨ step = .allocate ∧ a.free = [] ∧ (step.apply a).size = a.size + 1)
      ∧ ∀ h : Int, (∃ e, a.get h = .error e) ↔ ¬∃ k ∈ held steps, (k : Int) = h := by
  intro a
  have hs : a.Sound := sound_run steps
  have hheld : HeldAre a (held steps) := heldAre_run steps
  refine ⟨hs.free_nodup, fun h => ?_, hheld.nodup, fun h hh => ?_, hheld.length_eq hs,
    hs.live_add_freeCount, hs.pages_size, fun h => hs.page_lt, a.size_apply, fun h => ?_⟩
  · rw [hs.mem_free, hheld.mem_iff, Bool.not_eq_true]
  · exact lt_size_of_isAllocated ((hheld.mem_iff h).mp hh)
  · rw [get_eq_error_iff]
    simp only [hheld.mem_iff]

end BlockWorld.Arena
