import BlockWorld.Proofs.World.Blocks
import BlockWorld.World.Query
/-!
What a ray finds. The samples of a ray are looked at one after the other, and the one before is
carried along. The search stops at the first sample that lies in a block (`firstHit_spec`), so the
sample before it lies in none: its cell is where a block can be put. Nothing is assumed about the
arithmetic of the samples; they may be any cells, also the same one many times.

How the proof goes. The search is a recursion on the samples left, and `firstHit_spec` is the induction on it,
for any first sample and any sample before it: no sample lies in a block and nothing is found, or the search
ends at the first one that does. `raycast_finds_first` adds what comes before the search. A ray without
length, or with a direction that has none, finds nothing, and for all others the number of samples comes from
the length.

The length of a direction is computed, and a computed length can be zero where the direction is not. Such a
ray finds nothing even if it starts inside a block (`raycast_overlooks_stone`).
-/
namespace BlockWorld.World

open Grid Space

variable (w : World) (origin direction : Point Float)

/-- The cell of a sample of a ray. -/
def sampleCell (i : Nat) : Coord := (sample origin direction i).floor

/-- The search either meets no block among its samples, or it stops at the first one that lies in a
block and gives its cell with the cell before. -/
theorem firstHit_spec (n i : Nat) (previous : Point Float) :
    ((∀ k < n, w.block? (sampleCell origin direction (i + k)) = none)
        ∧ firstHit w origin direction n i previous = none)
      ∨ ∃ k < n, (w.block? (sampleCell origin direction (i + k))).isSome = true
        ∧ (∀ j < k, w.block? (sampleCell origin direction (i + j)) = none)
        ∧ firstHit w origin direction n i previous
          = some (sampleCell origin direction (i + k),
            if k = 0 then previous.floor else sampleCell origin direction (i + k - 1)) := by
  induction n generalizing i previous with
  | zero => exact .inl ⟨fun k hk => absurd hk (Nat.not_lt_zero k), rfl⟩
  | succ n ih =>
    by_cases hsolid : (w.block? (sampleCell origin direction i)).isSome = true
    · refine .inr ⟨0, Nat.succ_pos n, hsolid, fun j hj => absurd hj (Nat.not_lt_zero j), ?_⟩
      rw [firstHit, if_pos rfl]
      exact if_pos hsolid
    · have hclear : w.block? (sampleCell origin direction i) = none := by
        simpa using hsolid
      have hnext : firstHit w origin direction (n + 1) i previous
          = firstHit w origin direction n (i + 1) (sample origin direction i) := by
        rw [firstHit]
        exact if_neg hsolid
      -- What the rest of the samples is like, counted from this one on.
      have hfrom {m : Nat}
          (hrest : ∀ j < m, w.block? (sampleCell origin direction (i + 1 + j)) = none) :
          ∀ j < m + 1, w.block? (sampleCell origin direction (i + j)) = none := by
        intro j hj
        cases j with
        | zero => exact hclear
        | succ j =>
          rw [show i + (j + 1) = i + 1 + j by omega]
          exact hrest j (Nat.lt_of_succ_lt_succ hj)
      rw [hnext]
      obtain ⟨hnone, hrest⟩ | ⟨k, hk, hhit, hbefore, hrest⟩ :=
        ih (i + 1) (sample origin direction i)
      · exact .inl ⟨hfrom hnone, hrest⟩
      · have hshift : i + (k + 1) = i + 1 + k := by omega
        refine .inr ⟨k + 1, Nat.succ_lt_succ hk, hshift ▸ hhit, hfrom hbefore, ?_⟩
        rw [hrest, hshift, if_neg (Nat.succ_ne_zero k)]
        by_cases hfirst : k = 0
        · rw [if_pos hfirst, hfirst]
          rfl
        · rw [if_neg hfirst]

theorem raycast_of_degenerate {length : Float}
    (h : (direction.length == 0 || decide (length ≤ 0)) = true) (before : Bool) :
    raycast w origin direction length before = (none, w) := by
  rw [raycast, if_pos h]

theorem raycast_eq {length : Float} (h : ¬(direction.length == 0 || decide (length ≤ 0)) = true)
    (before : Bool) :
    let hit := firstHit w origin direction.normalized (raySteps length + 1) 0 origin
    raycast w origin direction length before
      = (hit.map fun cells => if before then cells.2 else cells.1,
        { w with gauges := w.gauges.ray hit.isSome }) := by
  rw [raycast, if_neg h]

/-- A ray that has no length, or whose direction has none, finds nothing. Any other ray finds
something if and only if one of its samples, the first and the last included, lies in a block. It
finds the cell of the first such sample. Asked for the cell before, it finds something in the same
cases: the cell of the sample before, in which there is no block, or the cell of its origin if the
first sample lies in a block already. In all cases the world stays as it is, apart from the counts of
rays. -/
theorem raycast_finds_first (length : Float) :
    let s (i : Nat) : Coord := sampleCell origin direction.normalized i
    let n : Nat := raySteps length
    let cast (before : Bool) : Option Coord × World := raycast w origin direction length before
    if direction.length == 0 || length ≤ 0 then ∀ before, cast before = (none, w)
    else
      (∀ before, (cast before).1.isSome = true ↔ ∃ i ≤ n, (w.block? (s i)).isSome = true)
        ∧ (∀ i ≤ n, (w.block? (s i)).isSome = true → (∀ j < i, w.block? (s j) = none) →
          (cast false).1 = some (s i)
            ∧ (i = 0 → (cast true).1 = some origin.floor)
            ∧ (0 < i → (cast true).1 = some (s (i - 1)) ∧ w.block? (s (i - 1)) = none))
        ∧ ∀ before,
          (cast before).2 = { w with gauges := w.gauges.ray (cast before).1.isSome }
            ∧ ∀ c, (cast before).2.chunk? c = w.chunk? c := by
  intro s n cast
  split
  · rename_i h
    exact raycast_of_degenerate w origin direction h
  · rename_i h
    have hcast (before : Bool) := raycast_eq w origin direction h before
    have hsearch := firstHit_spec w origin direction.normalized (n + 1) 0 origin
    simp only [Nat.zero_add] at hsearch
    refine ⟨fun before => ?_, fun i hi hsolid hclear => ?_, fun before => ?_⟩
    · rw [show cast before = _ from hcast before, Option.isSome_map]
      obtain ⟨hnone, hhit⟩ | ⟨k, hk, hsolid, -, hhit⟩ := hsearch
      · rw [hhit]
        refine ⟨fun hfalse => absurd hfalse Bool.false_ne_true, ?_⟩
        rintro ⟨i, hi, hsolid⟩
        rw [show w.block? (s i) = none from hnone i (Nat.lt_succ_of_le hi)] at hsolid
        cases hsolid
      · rw [hhit]
        exact ⟨fun _ => ⟨k, Nat.le_of_lt_succ hk, hsolid⟩, fun _ => rfl⟩
    · obtain ⟨hnone, -⟩ | ⟨k, hk, hfirst, hbefore, hhit⟩ := hsearch
      · rw [show w.block? (s i) = none from hnone i (Nat.lt_succ_of_le hi)] at hsolid
        cases hsolid
      · -- Both are the first sample in a block.
        have hki : k = i := by
          rcases Nat.lt_trichotomy k i with hlt | heq | hgt
          · rw [show w.block? _ = none from hclear k hlt] at hfirst
            cases hfirst
          · exact heq
          · rw [show w.block? (s i) = none from hbefore i hgt] at hsolid
            cases hsolid
        subst hki
        rw [show cast false = _ from hcast false, show cast true = _ from hcast true, hhit]
        refine ⟨rfl, fun hzero => ?_, fun hpos => ⟨?_, hclear (k - 1) (by omega)⟩⟩
        · rw [Option.map_some, if_pos rfl, if_pos hzero]
        · rw [Option.map_some, if_pos rfl, if_neg (by omega)]
    · rw [show cast before = _ from hcast before, Option.isSome_map]
      exact ⟨rfl, fun c => rfl⟩

/-- A world with a stone in the cell of a point. -/
def stoneAt (p : Point Float) : World := (new 1 "" .zero "").setBlock p.floor Block.stone

theorem block?_stoneAt (p : Point Float) : ((stoneAt p).block? p.floor).isSome = true := by
  rw [stoneAt, block?_setBlock (owned_new 1 "" .zero ""), if_pos rfl]
  rfl

/-- A ray starts inside a stone and goes along the first axis. If its direction is written with a coordinate
so small that the square of it is zero, then the direction has no length although it is not zero, and the
ray finds nothing. Written with the coordinate one, it finds the stone. -/
theorem raycast_overlooks_stone :
    let origin : Point Float := ⟨0.5, 0.5, 0.5⟩
    Point.isZero (⟨1e-200, 0, 0⟩ : Point Float) = false
      ∧ ((stoneAt origin).block? origin.floor).isSome = true
      ∧ (raycast (stoneAt origin) origin ⟨1e-200, 0, 0⟩ 1 false).1 = none
      ∧ (raycast (stoneAt origin) origin ⟨1, 0, 0⟩ 1 false).1 = some origin.floor := by
  intro origin
  refine ⟨by decide +kernel, block?_stoneAt origin, ?_, ?_⟩
  · rw [raycast_of_degenerate _ _ _ (by decide +kernel)]
  · have hfirst : sample origin (Point.normalized ⟨1, 0, 0⟩) 0 = origin := by decide +kernel
    rw [raycast_eq _ _ _ (by decide +kernel), firstHit, hfirst, if_pos (block?_stoneAt origin)]
    rfl

end BlockWorld.World
