import BlockWorld.Arena
import BlockWorld.Metrics
/-!
What a world reports about itself: the state of its storage, and counts of what was done with it.
-/
namespace BlockWorld.World

/-- The values that a world reports. -/
structure Gauges where
  /-- Slots of the arena that are handed out. -/
  chunks : Nat
  /-- All slots of the arena. -/
  capacity : Nat
  /-- Slots of the arena that can be used again. -/
  freeSlots : Nat
  megachunks : Nat
  blockWrites : Nat
  rayHits : Nat
  rayMisses : Nat
  /-- Boxes that had to be pushed. -/
  pushes : Nat
  /-- Boxes that were clear of blocks. -/
  clears : Nat
  saves : Nat
  loads : Nat
  saveFailures : Nat
  loadFailures : Nat
  deriving DecidableEq, Repr, Inhabited

namespace Gauges

/-- The report of a new world. -/
def zero : Gauges := ⟨0, 0, 0, 0, 0, 0, 0, 0, 0, 0, 0, 0, 0⟩

/-- Reports the state of the storage (`WorldMetrics.ObserveArena`). -/
def observe (g : Gauges) (a : Arena) (megachunks : Nat) : Gauges :=
  { g with chunks := a.live, capacity := a.size, freeSlots := a.freeCount, megachunks }

/-- Counts a written block (`WorldMetrics.BlockWritten`). -/
def blockWritten (g : Gauges) : Gauges := { g with blockWrites := g.blockWrites + 1 }

/-- Counts a ray (`WorldMetrics.Raycast`). -/
def ray (g : Gauges) (hit : Bool) : Gauges :=
  if hit then { g with rayHits := g.rayHits + 1 } else { g with rayMisses := g.rayMisses + 1 }

/-- Counts a box (`WorldMetrics.Collision`). -/
def collision (g : Gauges) (pushed : Bool) : Gauges :=
  if pushed then { g with pushes := g.pushes + 1 } else { g with clears := g.clears + 1 }

/-- Counts a save (`WorldMetrics.Saved`). -/
def saved (g : Gauges) (ok : Bool) : Gauges :=
  if ok then { g with saves := g.saves + 1 } else { g with saveFailures := g.saveFailures + 1 }

/-- Counts a load (`WorldMetrics.Loaded`). -/
def loaded (g : Gauges) (ok : Bool) : Gauges :=
  if ok then { g with loads := g.loads + 1 } else { g with loadFailures := g.loadFailures + 1 }

/-- The values by name. Counts by result are left out while they are zero. -/
def samples (g : Gauges) : List Metrics.Sample :=
  let byResult (name result : String) (value : Nat) : List Metrics.Sample :=
    if value = 0 then [] else [⟨.counter, name, [("result", result)], value⟩]
  [⟨.gauge, "voxel_arena_capacity", [], g.capacity⟩,
   ⟨.gauge, "voxel_arena_free_slots", [], g.freeSlots⟩,
   ⟨.counter, "voxel_block_writes_total", [], g.blockWrites⟩,
   ⟨.gauge, "voxel_chunks_allocated", [], g.chunks⟩] ++
  byResult "voxel_collisions_total" "clear" g.clears ++
  byResult "voxel_collisions_total" "pushed" g.pushes ++
  [⟨.histogram, "voxel_load_duration_seconds", [], g.loads⟩,
   ⟨.counter, "voxel_load_failures_total", [], g.loadFailures⟩,
   ⟨.gauge, "voxel_megachunks_loaded", [], g.megachunks⟩] ++
  byResult "voxel_raycasts_total" "hit" g.rayHits ++
  byResult "voxel_raycasts_total" "miss" g.rayMisses ++
  [⟨.histogram, "voxel_save_duration_seconds", [], g.saves⟩,
   ⟨.counter, "voxel_save_failures_total", [], g.saveFailures⟩]

end Gauges

end BlockWorld.World
