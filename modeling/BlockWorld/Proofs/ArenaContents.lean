import Mathlib.Data.List.Induction
import BlockWorld.Proofs.ArenaRuns
/-!
What is behind the handles of an arena in use. Slots are wiped when they are handed out again and
not when they are taken back, and new ones come from a page that nobody has written to. Both ways
lead to the same: behind a handle is a fresh chunk with the changes that were made through this
handle since it was given out for the last time (`run_contents`). For one step: whatever it does, a
slot that was in use before holds what it held, changed by the step if that is a write to this very
slot (`Sound.slot_apply`).

The induction is on the steps, taken from the end. Its statement (`slot_run`) splits the steps at the moment
when the handle was given out last (`LastGiven`), and one more step does not move that moment for a handle
that is in use (`LastGiven.append`). If the step hands the slot out, the split is at its end and the slot is
fresh; otherwise the slot was in use before (`Sound.isAllocated_of_apply`), and the step adds its own change
to those since the split.
-/
namespace BlockWorld.Arena

/-- The change that a step makes to the chunk behind a handle, if it is a write to it. -/
def Step.change? (h : Nat) : Step → Option (ChunkData → ChunkData)
  | .write k f => if k = h then some f else none
  | .allocate => none
  | .free _ => none
  | .clear => none

/-- A chunk after the writes to a handle among some steps. -/
def writeTo (h : Nat) (steps : List Step) (d : ChunkData) : ChunkData :=
  (steps.filterMap (Step.change? h)).foldl (fun d f => f d) d

/-- Among some steps, a handle was given out for the last time between `before` and `since`. -/
structure LastGiven (steps : List Step) (h : Nat) (before since : List Step) : Prop where
  steps_eq : steps = before ++ .allocate :: since
  given : (run before).allocate.1 = h
  last : ∀ mid rest, since = mid ++ .allocate :: rest →
    (run (before ++ .allocate :: mid)).allocate.1 ≠ h

theorem run_append_singleton (steps : List Step) (step : Step) :
    run (steps ++ [step]) = step.apply (run steps) := by
  rw [run, run, List.foldl_append, List.foldl_cons, List.foldl_nil]

theorem writeTo_append_singleton (h : Nat) (steps : List Step) (step : Step) (d : ChunkData) :
    writeTo h (steps ++ [step]) d = writeTo h [step] (writeTo h steps d) := by
  rw [writeTo, writeTo, writeTo, List.filterMap_append, List.foldl_append]

/-- A slot in use holds after a step what it held before, with the step's own change to it. -/
theorem Sound.slot_apply {a : Arena} (hs : a.Sound) {h : Nat} (hused : a.isAllocated h = true)
    (step : Step) : (step.apply a).slot h = writeTo h [step] (a.slot h) := by
  cases step with
  | allocate =>
    have hother : h ≠ a.allocate.1 := by
      rintro rfl
      rw [hs.allocate.vacant] at hused
      cases hused
    exact hs.allocate.slot_other h hother
  | free k =>
    simp only [Step.apply, freeHandle]
    cases a.check k <;> rfl
  | clear => rfl
  | write k f =>
    simp only [Step.apply]
    cases hk : a.check k with
    | error e =>
      have hother : k ≠ h := (ne_of_check_error hk hused).symm
      simp [writeTo, Step.change?, hother]
    | ok g =>
      obtain ⟨rfl, hg⟩ := check_eq_ok_iff.mp hk
      rw [hs.slot_modify hg]
      by_cases he : h = g
      · simp [writeTo, Step.change?, he]
      · have hother : (g : Int) ≠ h := fun hgh => he (Int.natCast_inj.mp hgh).symm
        simp [writeTo, Step.change?, he, hother]

/-- A slot that is in use after a step was in use before, or has just been handed out. -/
theorem Sound.isAllocated_of_apply {a : Arena} (hs : a.Sound) {h : Nat} {step : Step}
    (hused : (step.apply a).isAllocated h = true) :
    a.isAllocated h = true ∨ step = .allocate ∧ a.allocate.1 = h := by
  cases step with
  | allocate =>
    have hmarks := hs.allocate.isAllocated h
    change a.allocate.2.isAllocated h = true at hused
    rw [hused] at hmarks
    obtain hnew | hold := Bool.or_eq_true_iff.mp hmarks.symm
    · exact .inr ⟨rfl, (beq_iff_eq.mp hnew).symm⟩
    · exact .inl hold
  | free k =>
    left
    simp only [Step.apply, freeHandle] at hused
    cases hk : a.check k with
    | error e =>
      rw [hk] at hused
      exact hused
    | ok g =>
      rw [hk] at hused
      change (a.release g).isAllocated h = true at hused
      rw [isAllocated_release, Bool.and_eq_true] at hused
      exact hused.2
  | clear => exact absurd hused (by simp [Step.apply])
  | write k f =>
    left
    simp only [Step.apply] at hused
    cases hk : a.check k <;> rw [hk] at hused <;> exact hused

/-- One more step does not give a handle out that is in use. -/
theorem LastGiven.append {steps before since : List Step} {h : Nat}
    (hl : LastGiven steps h before since) (hused : (run steps).isAllocated h = true) (step : Step) :
    LastGiven (steps ++ [step]) h before (since ++ [step]) where
  steps_eq := by simp [hl.steps_eq]
  given := hl.given
  last mid rest heq := by
    obtain rfl | ⟨rest, end', rfl⟩ := rest.eq_nil_or_concat
    · -- The step in question is the new one.
      obtain ⟨rfl, -⟩ := List.append_inj' heq rfl
      rw [← hl.steps_eq]
      intro hgiven
      rw [← hgiven, (sound_run steps).allocate.vacant] at hused
      cases hused
    · have hsplit : since ++ [step] = (mid ++ .allocate :: rest) ++ [end'] := by simp [heq]
      exact hl.last mid rest (List.append_inj' hsplit rfl).1

/-- Behind a handle in use is a fresh chunk with what was written to it since it was given out. -/
theorem slot_run (steps : List Step) {h : Nat} (hused : (run steps).isAllocated h = true) :
    ∃ before since, LastGiven steps h before since
      ∧ (run steps).slot h = writeTo h since .fresh := by
  induction steps using List.reverseRecOn with
  | nil => exact absurd hused (by simp [run, empty, isAllocated])
  | append_singleton steps step ih =>
    have hs := sound_run steps
    rw [run_append_singleton] at hused ⊢
    obtain hbefore | ⟨rfl, hgiven⟩ := hs.isAllocated_of_apply hused
    · obtain ⟨before, since, hlast, hslot⟩ := ih hbefore
      refine ⟨before, since ++ [step], hlast.append hbefore step, ?_⟩
      rw [hs.slot_apply hbefore, hslot, writeTo_append_singleton]
    · refine ⟨steps, [], ⟨rfl, hgiven, fun mid rest heq => by simp at heq⟩, ?_⟩
      rw [← hgiven]
      exact hs.allocate.slot_self

theorem get_of_isAllocated {a : Arena} {h : Nat} (hused : a.isAllocated h = true) :
    a.get h = .ok (a.slot h) := by
  rw [get, check_natCast hused]
  rfl

/-- A step that neither takes a handle back nor writes to it leaves what is behind it. -/
theorem Sound.get_apply_other {a : Arena} (hs : a.Sound) {h : Nat} (hused : a.isAllocated h = true)
    {step : Step} (hfree : step ≠ .free h) (hclear : step ≠ .clear)
    (hwrite : ∀ f, step ≠ .write h f) : (step.apply a).get h = a.get h := by
  have hkept : (step.apply a).isAllocated h = true := by
    cases step with
    | allocate =>
      show a.allocate.2.isAllocated h = true
      rw [hs.allocate.isAllocated, hused, Bool.or_true]
    | free k =>
      simp only [Step.apply, freeHandle]
      cases hk : a.check k with
      | error e => exact hused
      | ok g =>
        obtain ⟨rfl, -⟩ := check_eq_ok_iff.mp hk
        have hother : h ≠ g := by
          rintro rfl
          exact hfree rfl
        show (a.release g).isAllocated h = true
        rw [isAllocated_release, hused, Bool.and_true, bne_iff_ne]
        exact hother
    | clear => exact absurd rfl hclear
    | write k f =>
      simp only [Step.apply]
      cases a.check k <;> exact hused
  have hsame : writeTo h [step] (a.slot h) = a.slot h := by
    cases step with
    | write k f =>
      have hother : k ≠ h := by
        rintro rfl
        exact hwrite f rfl
      simp [writeTo, Step.change?, hother]
    | _ => rfl
  rw [get_of_isAllocated hkept, get_of_isAllocated hused, hs.slot_apply hused, hsame]

/-- Whatever steps have been taken: the handle that is given out next is none of those that are held, and
reading it then gives a fresh chunk. Every handle that is held was given out at some time for the last
time, and reading it gives a fresh chunk with the changes that were written to it since then, and no
others. Any further step, the growing of the arena included, leaves what is read there as it is, unless it
is a write to this handle or takes it back. -/
theorem run_contents (steps : List Step) :
    let a := run steps
    a.allocate.1 ∉ held steps
      ∧ a.allocate.2.get a.allocate.1 = .ok ⟨.empty, false, 0, 0⟩
      ∧ ∀ h ∈ held steps,
        (∃ before since, LastGiven steps h before since
          ∧ a.get h = .ok (writeTo h since ⟨.empty, false, 0, 0⟩))
        ∧ ∀ step : Step, step ≠ .free h → step ≠ .clear → (∀ f, step ≠ .write h f) →
          (step.apply a).get h = a.get h := by
  intro a
  have hs : a.Sound := sound_run steps
  have hheld : HeldAre a (held steps) := heldAre_run steps
  refine ⟨?_, ?_, fun h hh => ?_⟩
  · rw [hheld.mem_iff, hs.allocate.vacant]
    exact Bool.false_ne_true
  · rw [get_of_isAllocated hs.allocate.isAllocated_self, hs.allocate.slot_self]
    rfl
  · have hused : a.isAllocated h = true := (hheld.mem_iff h).mp hh
    refine ⟨?_, fun step => hs.get_apply_other hused⟩
    obtain ⟨before, since, hlast, hslot⟩ := slot_run steps hused
    refine ⟨before, since, hlast, ?_⟩
    rw [get_of_isAllocated hused, hslot]
    rfl

end BlockWorld.Arena
