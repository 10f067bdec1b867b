import BlockWorld.Proofs.Archive
import BlockWorld.Proofs.EntryName
import BlockWorld.Proofs.MegachunkCodec
import BlockWorld.Proofs.World.Invariant
/-!
Saving a world. The megachunks are written one after the other and the manifest last. If all of them
can be written, the archive then holds the manifest, one entry for each megachunk, and nothing else
(`SavedAs`); if not, the save stops at one that cannot (`saveTo_of_error`).

How the proof goes. Writing goes through the coordinates of the megachunks, and the induction is on those
left. `Wrote` says what has been added to the archive so far: the entries of the coordinates gone through, and
nothing else. Their names differ, so none of them replaces another (`Wrote.cons`). The manifest comes last,
under a name that is that of no megachunk. A save into another sink is compared with one into memory, write by
write: it takes the same entries or stops (`writeMegachunks_tracks`, `saveTo_tracks`).
-/
namespace BlockWorld.World

open Grid Save

/-! ## Megachunks of a world -/

section Coords

variable {w : World}

theorem mem_coords (w : World) (c : Coord) : c ∈ w.coords ↔ (w.table c).isSome = true := by
  rw [coords, List.mem_mergeSort, Std.HashMap.mem_keys, table, Std.HashMap.isSome_getElem?_iff_mem]

theorem exists_table_of_mem {c : Coord} (hc : c ∈ w.coords) : ∃ m, w.table c = some m :=
  Option.isSome_iff_exists.mp ((w.mem_coords c).mp hc)

theorem coords_nodup (w : World) : w.coords.Nodup := by
  rw [coords, (List.mergeSort_perm _ _).nodup_iff]
  exact Std.HashMap.nodup_keys

theorem length_coords (w : World) : w.coords.length = w.megachunkCount := by
  rw [coords, List.length_mergeSort, Std.HashMap.length_keys, megachunkCount]

theorem Owned.heldBy (ho : w.Owned) {c : Coord} {m : Megachunk} (hm : w.table c = some m) :
    m.HeldBy w.arena := by
  intro l h hl
  refine ho.held c l h ?_
  rw [Table.handle, hm]
  exact hl

theorem chunkAt_of_table {c : Coord} {m : Megachunk} (hm : w.table c = some m) (l : Local) :
    w.chunkAt c l = m.chunk? w.arena l := by
  rw [chunkAt, Table.chunk, Table.handle, hm]
  rfl

/-- What is written for a megachunk. -/
def entry (w : World) (c : Coord) : Except Megachunk.HeaderError ByteArray :=
  ((w.megachunks[c]?).getD (.empty c)).encode w.arena

theorem entry_of_table {c : Coord} {m : Megachunk} (hm : w.table c = some m) :
    w.entry c = m.encode w.arena := by
  have hget : w.megachunks[c]? = some m := hm
  rw [entry, hget, Option.getD_some]

end Coords

/-! ## Writing -/

/-- An archive to which the entries of some megachunks have been added. -/
structure Wrote (w : World) (cs : List Coord) (a a' : MemoryArchive) : Prop where
  faultless : a'.Faultless
  sorted : a'.entries.Sorted
  wrote : ∀ c ∈ cs, ∃ data, w.entry c = .ok data
    ∧ a'.entries.get? (EntryName.ofCoord c) = some data
  kept : ∀ name, (∀ c ∈ cs, name ≠ EntryName.ofCoord c) →
    a'.entries.get? name = a.entries.get? name

section Write

variable {w : World} {a : MemoryArchive}

theorem Wrote.cons {c : Coord} {cs : List Coord} {data : ByteArray} {a' : MemoryArchive}
    (hc : w.entry c = .ok data)
    (h : w.Wrote cs { a with entries := a.entries.insert (EntryName.ofCoord c) data } a') :
    w.Wrote (c :: cs) a a' where
  faultless := h.faultless
  sorted := h.sorted
  wrote := by
    intro c' hc'
    by_cases hlater : c' ∈ cs
    · exact h.wrote c' hlater
    · -- The entry is not written again, so it is the one written here.
      obtain rfl : c' = c := (List.mem_cons.mp hc').resolve_right hlater
      refine ⟨data, hc, ?_⟩
      rw [h.kept, Entries.get?_insert, if_pos rfl]
      intro k hk he
      rw [← EntryName.ofCoord_injective he] at hk
      exact hlater hk
  kept := by
    intro name hname
    rw [h.kept name fun k hk => hname k (List.mem_cons_of_mem c hk), Entries.get?_insert,
      if_neg (hname c List.mem_cons_self)]

theorem writeMegachunks_cons {σ : Type} (w : World) (sink : Sink σ) (c : Coord) (cs : List Coord)
    (s : σ) :
    w.writeMegachunks sink (c :: cs) s = match w.entry c with
      | .error e => (s, .error (.encode c e))
      | .ok data =>
        match sink.write s (EntryName.ofCoord c) data with
        | (s, .error e) => (s, .error (.write c e))
        | (s, .ok ()) => w.writeMegachunks sink cs s := by
  rfl

theorem writeMegachunks_cons_of_ok (ha : a.Faultless) {c : Coord} {data : ByteArray}
    (h : w.entry c = .ok data) (cs : List Coord) :
    w.writeMegachunks MemoryArchive.sink (c :: cs) a
      = w.writeMegachunks MemoryArchive.sink cs
          { a with entries := a.entries.insert (EntryName.ofCoord c) data } := by
  have hwrite : MemoryArchive.sink.write a (EntryName.ofCoord c) data = _ :=
    MemoryArchive.write_of_faultless ha (EntryName.ofCoord c) data
  rw [writeMegachunks_cons, h]
  simp only [hwrite]

/-- The megachunks are all written if each of them can be. -/
theorem writeMegachunks_of_ok (ha : a.Faultless) (hs : a.entries.Sorted) {cs : List Coord}
    (hcs : ∀ c ∈ cs, ∃ data, w.entry c = .ok data) :
    ∃ a', w.writeMegachunks MemoryArchive.sink cs a = (a', .ok ()) ∧ w.Wrote cs a a' := by
  induction cs generalizing a with
  | nil =>
    exact ⟨a, rfl, ha, hs, fun c hc => absurd hc List.not_mem_nil, fun _ _ => rfl⟩
  | cons c cs ih =>
    obtain ⟨data, hdata⟩ := hcs c List.mem_cons_self
    obtain ⟨a', hrest, hwrote⟩ :=
      @ih { a with entries := a.entries.insert (EntryName.ofCoord c) data }
        ⟨ha.list, ha.read, ha.write⟩ (hs.insert _ _)
        fun c' hc' => hcs c' (List.mem_cons_of_mem c hc')
    exact ⟨a', (writeMegachunks_cons_of_ok ha hdata cs).trans hrest, .cons hdata hwrote⟩

/-- If a megachunk cannot be written, writing stops at such a megachunk. -/
theorem writeMegachunks_of_error (ha : a.Faultless) {cs : List Coord}
    (hcs : ¬∀ c ∈ cs, ∃ data, w.entry c = .ok data) :
    ∃ c e, (w.writeMegachunks MemoryArchive.sink cs a).2 = .error (.encode c e) := by
  induction cs generalizing a with
  | nil => exact absurd (fun c hc => absurd hc List.not_mem_nil) hcs
  | cons c cs ih =>
    cases hentry : w.entry c with
    | error e => exact ⟨c, e, by rw [writeMegachunks_cons, hentry]⟩
    | ok data =>
      have hrest : ¬∀ c' ∈ cs, ∃ data, w.entry c' = .ok data := by
        intro hall
        refine hcs fun c' hc' => ?_
        cases List.mem_cons.mp hc' with
        | inl he => exact ⟨data, he ▸ hentry⟩
        | inr hmem => exact hall c' hmem
      obtain ⟨c', e, herror⟩ :=
        @ih { a with entries := a.entries.insert (EntryName.ofCoord c) data }
          ⟨ha.list, ha.read, ha.write⟩ hrest
      exact ⟨c', e, by rw [writeMegachunks_cons_of_ok ha hentry, herror]⟩

end Write

/-- An archive that holds a world: the manifest, one entry for each megachunk, and nothing else. -/
structure SavedAs (w : World) (savedAt : Data.Timestamp) (a : MemoryArchive) : Prop where
  faultless : a.Faultless
  sorted : a.entries.Sorted
  manifest : a.entries.get? Manifest.entryName = some (w.manifest savedAt).encode
  entries : ∀ c ∈ w.coords, ∃ data, w.entry c = .ok data
    ∧ a.entries.get? (EntryName.ofCoord c) = some data
  others : ∀ name, name ≠ Manifest.entryName → (∀ c ∈ w.coords, name ≠ EntryName.ofCoord c) →
    a.entries.get? name = none

section Save

variable (w : World) (savedAt : Data.Timestamp)

/-- A world all of whose megachunks can be written is saved. -/
theorem saveTo_of_ok (h : ∀ c ∈ w.coords, ∃ data, w.entry c = .ok data) :
    (w.saveTo savedAt MemoryArchive.sink .empty).2.1 = .ok ()
      ∧ w.SavedAs savedAt (w.saveTo savedAt MemoryArchive.sink .empty).1 := by
  obtain ⟨a, hrun, hwrote⟩ :=
    writeMegachunks_of_ok MemoryArchive.faultless_empty Entries.sorted_empty h
  have hwrite : MemoryArchive.sink.write a Manifest.entryName (w.manifest savedAt).encode = _ :=
    MemoryArchive.write_of_faultless hwrote.faultless _ _
  have hsave : (w.saveTo savedAt MemoryArchive.sink .empty).2.1 = .ok ()
      ∧ (w.saveTo savedAt MemoryArchive.sink .empty).1
        = { a with
            entries := a.entries.insert Manifest.entryName (w.manifest savedAt).encode } := by
    simp only [saveTo, writeEntries, hrun, Manifest.writeTo, hwrite, and_self]
  refine ⟨hsave.1, ?_⟩
  rw [hsave.2]
  constructor
  case faultless => exact ⟨hwrote.faultless.list, hwrote.faultless.read, hwrote.faultless.write⟩
  case sorted => exact hwrote.sorted.insert _ _
  case manifest => rw [Entries.get?_insert, if_pos rfl]
  case entries =>
    intro c hc
    obtain ⟨data, hdata, hget⟩ := hwrote.wrote c hc
    refine ⟨data, hdata, ?_⟩
    rw [Entries.get?_insert, if_neg (EntryName.ofCoord_ne_manifest c), hget]
  case others =>
    intro name hname hcs
    rw [Entries.get?_insert, if_neg hname, hwrote.kept name hcs]
    rfl

/-- A world with a megachunk that cannot be written is not saved. -/
theorem saveTo_of_error (h : ¬∀ c ∈ w.coords, ∃ data, w.entry c = .ok data) :
    ∃ c e, (w.saveTo savedAt MemoryArchive.sink .empty).2.1 = .error (.encode c e) := by
  obtain ⟨c, e, herror⟩ := writeMegachunks_of_error MemoryArchive.faultless_empty h
  refine ⟨c, e, ?_⟩
  cases hrun : w.writeMegachunks MemoryArchive.sink w.coords .empty with
  | mk a result =>
    rw [hrun] at herror
    obtain rfl : result = .error (.encode c e) := herror
    simp only [saveTo, writeEntries, hrun]

end Save

/-! ## Other sinks -/

section Sinks

variable (w : World) (savedAt : Data.Timestamp) {σ : Type} {sink : Sink σ}
  {holds : Entries → σ → Prop} {torn : σ → Prop} {a : MemoryArchive} {s : σ}

theorem writeMegachunks_tracks (ht : sink.Tracks holds torn) (ha : a.Faultless)
    (hs : holds a.entries s) (cs : List Coord) :
    (∃ s' a', w.writeMegachunks sink cs s = (s', .ok ())
        ∧ w.writeMegachunks MemoryArchive.sink cs a = (a', .ok ())
        ∧ a'.Faultless ∧ holds a'.entries s')
      ∨ ∃ s' e, w.writeMegachunks sink cs s = (s', .error e) ∧ torn s' := by
  induction cs generalizing a s with
  | nil => exact .inl ⟨s, a, rfl, rfl, ha, hs⟩
  | cons c cs ih =>
    cases hentry : w.entry c with
    | error e => exact .inr ⟨s, .encode c e, by rw [writeMegachunks_cons, hentry], ht.torn_of_holds hs⟩
    | ok data =>
      rw [writeMegachunks_cons_of_ok ha hentry, writeMegachunks_cons, hentry]
      dsimp only
      have hwrite := ht.write (EntryName.ofCoord c) data hs
      generalize sink.write s (EntryName.ofCoord c) data = written at hwrite
      obtain ⟨s', result⟩ := written
      obtain ⟨hok, hs'⟩ | ⟨⟨x, herror⟩, htorn⟩ := hwrite
      · dsimp only at hok hs'
        subst hok
        exact @ih { a with entries := a.entries.insert (EntryName.ofCoord c) data } s'
          ⟨ha.list, ha.read, ha.write⟩ hs'
      · dsimp only at herror htorn
        subst herror
        exact .inr ⟨s', .write c x, rfl, htorn⟩

/-- A save into another sink takes what a save into memory takes, or fails. -/
theorem saveTo_tracks (ht : sink.Tracks holds torn) (ha : a.Faultless) (hs : holds a.entries s) :
    ((w.saveTo savedAt sink s).2.1 = .ok ()
        ∧ (w.saveTo savedAt MemoryArchive.sink a).2.1 = .ok ()
        ∧ holds (w.saveTo savedAt MemoryArchive.sink a).1.entries (w.saveTo savedAt sink s).1)
      ∨ ((∃ e, (w.saveTo savedAt sink s).2.1 = .error e) ∧ torn (w.saveTo savedAt sink s).1) := by
  unfold saveTo writeEntries
  obtain ⟨s', a', hrun, hmem, ha', hs'⟩ | ⟨s', e, hrun, htorn⟩ :=
    writeMegachunks_tracks w ht ha hs w.coords
  · have hmanifest : MemoryArchive.sink.write a' Manifest.entryName (w.manifest savedAt).encode = _ :=
      MemoryArchive.write_of_faultless ha' _ _
    have hwrite := ht.write Manifest.entryName (w.manifest savedAt).encode hs'
    simp only [hrun, hmem, Manifest.writeTo, hmanifest]
    generalize sink.write s' Manifest.entryName (w.manifest savedAt).encode = written at hwrite
    obtain ⟨s'', result⟩ := written
    obtain ⟨hok, hs''⟩ | ⟨⟨x, herror⟩, htorn⟩ := hwrite
    · dsimp only at hok hs''
      subst hok
      exact .inl ⟨rfl, trivial, hs''⟩
    · dsimp only at herror htorn
      subst herror
      exact .inr ⟨⟨_, rfl⟩, htorn⟩
  · simp only [hrun]
    exact .inr ⟨⟨e, rfl⟩, htorn⟩

end Sinks

end BlockWorld.World
