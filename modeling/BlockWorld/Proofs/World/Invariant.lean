import Mathlib
import BlockWorld.Proofs.World.Checked
/-!
The invariant of all worlds. Whatever happens to a world, its handles are owned one to one
(`Owned.run`). So the arena counts exactly the chunks that the megachunks count, and no operation
ever meets a handle that leads nowhere.

How the proof goes. Ownership is kept by the elementary edits, by unloading and by loading, so it is kept by
every run (`Move.run_keeps`). From it the numbers follow: the handles of all megachunks are one list without
repetitions (`handles_nodup`) whose members are the slots in use (`mem_handles`), so the counter of the arena
is the sum of those of the megachunks (`live_eq_sum_count`). That no operation meets a bad handle is said by
running all moves with tests (`Checked.run_eq`). `run_new_ownership` is the sum of these for worlds that have
come about by moves from a new one.
-/
namespace BlockWorld

open Grid

/-- Every world that has come about by moves from one with owned handles has owned handles. -/
theorem World.Owned.run {w : World} (ho : w.Owned) (moves : List Move) : (Move.run moves w).Owned :=
  Move.run_keeps Edit.owned Owned.reset (fun c hu => hu.unload c) (fun s hu => hu.loadFrom s) moves
    ho

/-- No test fails in a whole run. -/
theorem Checked.run_eq {w : World} (ho : w.Owned) (moves : List Move) :
    Checked.run moves w = .ok (Move.run moves w) :=
  foldlM_eq_ok (P := World.Owned) moves (fun _ hu m _ => move_eq hu m)
    (fun _ hu m _ => World.Owned.run hu [m]) ho

namespace World

/-! ## Counting chunks -/

/-- The handles of all megachunks, one megachunk after the other. -/
def handles (w : World) : List Nat :=
  w.megachunks.toList.flatMap fun e => e.2.occupied.map (·.2)

section Count

variable {w : World} (ho : w.Owned)
include ho

theorem mem_handles (h : Nat) : h ∈ w.handles ↔ w.arena.isAllocated h = true := by
  simp only [handles, List.mem_flatMap, List.mem_map]
  constructor
  · rintro ⟨⟨c, m⟩, hm, ⟨l, k⟩, hk, rfl⟩
    have htable : w.table c = some m := Std.HashMap.mem_toList_iff_getElem?_eq_some.mp hm
    refine ho.held c l k ?_
    rw [Table.handle, htable]
    exact Megachunk.mem_occupied.mp hk
  · intro hh
    obtain ⟨c, l, hl⟩ := ho.owned h hh
    rw [Table.handle, Option.bind_eq_some_iff] at hl
    obtain ⟨m, hm, hl⟩ := hl
    exact ⟨(c, m), Std.HashMap.mem_toList_iff_getElem?_eq_some.mpr hm, (l, h),
      Megachunk.mem_occupied.mpr hl, rfl⟩

theorem handles_nodup : w.handles.Nodup := by
  rw [handles, List.nodup_flatMap]
  constructor
  · rintro ⟨c, m⟩ hm
    exact (Ownership.handles_of ho (Std.HashMap.mem_toList_iff_getElem?_eq_some.mp hm)).1
  · -- Different entries have different coordinates, and places of both do not share a handle.
    refine Std.HashMap.distinct_keys_toList.imp_of_mem ?_
    rintro ⟨c, m⟩ ⟨c', m'⟩ hm hm' hne k hk hk'
    obtain ⟨⟨l, _⟩, hl, rfl⟩ := List.mem_map.mp hk
    obtain ⟨⟨l', _⟩, hl', rfl⟩ := List.mem_map.mp hk'
    have htable : w.table c = some m := Std.HashMap.mem_toList_iff_getElem?_eq_some.mp hm
    have htable' : w.table c' = some m' := Std.HashMap.mem_toList_iff_getElem?_eq_some.mp hm'
    have heq := ho.unshared c l c' l' _
      (by rw [Table.handle, htable]; exact Megachunk.mem_occupied.mp hl)
      (by rw [Table.handle, htable']; exact Megachunk.mem_occupied.mp hl')
    exact absurd heq.1 (by simpa using hne)

/-- The arena has handed out as many slots as the megachunks count chunks. -/
theorem live_eq_sum_count : w.arena.live = (w.megachunks.toList.map (·.2.count)).sum := by
  have hperm : w.handles.Perm w.arena.allocatedSlots :=
    (List.perm_ext_iff_of_nodup (handles_nodup ho) w.arena.allocatedSlots_nodup).mpr fun h => by
      rw [mem_handles ho, Arena.mem_allocatedSlots]
  rw [ho.sound.live_eq_length, ← hperm.length_eq, handles, List.length_flatMap]
  refine congrArg List.sum (List.map_congr_left ?_)
  rintro ⟨c, m⟩ hm
  rw [List.length_map]
  exact (ho.counted c m (Std.HashMap.mem_toList_iff_getElem?_eq_some.mp hm)).symm

end Count

/-- In every world that has come about by moves from a new one, megachunks are stored under their
own coordinates and count their chunks; their handles are in use, none is held twice, and every slot
in use is held; so the numbers of chunks agree. None of the tests of the checked moves has failed on
the way, none fails in the next look-up, and each megachunk takes just the bytes set aside for it. -/
theorem run_new_ownership (seed : Int64) (id : String) (createdAt : Data.Timestamp)
    (compression : String) (moves : List Move) :
    let w := Move.run moves (.new seed id createdAt compression)
    (∀ (c : Coord) (m : Megachunk), w.megachunks[c]? = some m →
        m.coord = c ∧ m.count = m.occupied.length)
      ∧ (∀ (c : Coord) (m : Megachunk) (l : Local) (h : Nat), w.megachunks[c]? = some m →
          m.handle? l = some h → w.arena.isAllocated h = true)
      ∧ (∀ (c c' : Coord) (m m' : Megachunk) (l l' : Local) (h : Nat),
          w.megachunks[c]? = some m → m.handle? l = some h →
          w.megachunks[c']? = some m' → m'.handle? l' = some h → c = c' ∧ l = l')
      ∧ (∀ h, w.arena.isAllocated h = true →
          ∃ (c : Coord) (m : Megachunk) (l : Local),
            w.megachunks[c]? = some m ∧ m.handle? l = some h)
      ∧ w.chunkCount = w.arena.live
      ∧ w.arena.live = w.arena.allocatedSlots.length
      ∧ w.arena.live = (w.megachunks.toList.map (·.2.count)).sum
      ∧ Checked.run moves (.new seed id createdAt compression) = .ok w
      ∧ (∀ c, Checked.handle? w c = .ok (w.handle? c))
      ∧ (∀ (c : Coord) (m : Megachunk), w.megachunks[c]? = some m →
          Checked.encode m w.arena = .ok (m.encode w.arena)
            ∧ ∀ data, m.encode w.arena = .ok data →
              data.size = Megachunk.headerSize + m.count * Megachunk.recordSize) := by
  intro w
  have hnew := owned_new seed id createdAt compression
  have ho : w.Owned := hnew.run moves
  have hin : ∀ {c : Coord} {m : Megachunk} {l : Local} {h : Nat}, w.megachunks[c]? = some m →
      m.handle? l = some h → w.table.handle c l = some h := by
    intro c m l h hm hl
    have htable : w.table c = some m := hm
    rw [Table.handle, htable]
    exact hl
  refine ⟨fun c m hm => ⟨ho.keyed c m hm, ho.counted c m hm⟩,
    fun c m l h hm hl => ho.held c l h (hin hm hl),
    fun c c' m m' l l' h hm hl hm' hl' => ho.unshared c l c' l' h (hin hm hl) (hin hm' hl'),
    fun h hh => ?_, rfl, ho.sound.live_eq_length, live_eq_sum_count ho,
    Checked.run_eq hnew moves, Checked.handle?_eq ho,
    fun c m hm => ⟨Checked.encode_of_table ho hm,
      fun data hdata => Megachunk.size_encode (ho.counted c m hm) hdata⟩⟩
  obtain ⟨c, l, hl⟩ := ho.owned h hh
  rw [Table.handle, Option.bind_eq_some_iff] at hl
  obtain ⟨m, hm, hl⟩ := hl
  exact ⟨c, m, l, hm, hl⟩

end World

end BlockWorld
