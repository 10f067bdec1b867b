import BlockWorld.Save.Archive
/-!
Archives in memory. Adding an entry changes what is read under its name and nothing else
(`Entries.get?_insert`). The entries stay in strictly increasing order of their names, so that no
name is listed twice.

Two kinds of sinks are told apart for everything that is written somewhere else than into memory. A sink that
tracks (`Sink.Tracks`) takes an entry as it is given or fails, and its state shows which entries it has;
whatever is proved for an archive in memory then holds for it up to its first failure. A sink that takes
(`Sink.Takes`) never fails as long as its state has a property, which each write keeps.
-/
namespace BlockWorld.Save

namespace Entries

/-- The names stand in strictly increasing order. -/
def Sorted (e : Entries) : Prop := e.pairs.Pairwise fun p q => p.1 < q.1

/-! ## Reading -/

theorem lookup_insertPair (name : String) (data : ByteArray) (pairs : List (String × ByteArray))
    (other : String) :
    (insertPair name data pairs).lookup other
      = if other = name then some data else pairs.lookup other := by
  by_cases he : other = name
  · subst he
    rw [if_pos rfl]
    induction pairs with
    | nil => rw [insertPair, List.lookup_cons_self]
    | cons p pairs ih =>
      obtain ⟨first, theirs⟩ := p
      rw [insertPair]
      split
      · exact List.lookup_cons_self
      · split
        · exact List.lookup_cons_self
        · rename_i hne
          rw [List.lookup_cons, beq_eq_false_iff_ne.mpr hne]
          exact ih
  · have hmiss : (other == name) = false := beq_eq_false_iff_ne.mpr he
    rw [if_neg he]
    induction pairs with
    | nil => rw [insertPair, List.lookup_cons, hmiss]
    | cons p pairs ih =>
      obtain ⟨first, theirs⟩ := p
      rw [insertPair]
      split
      · rw [List.lookup_cons, hmiss]
      · split
        · rename_i hsame
          rw [List.lookup_cons, hmiss, List.lookup_cons, ← hsame, hmiss]
        · rw [List.lookup_cons, List.lookup_cons, ih]

/-- What is read after an entry was added. -/
theorem get?_insert (e : Entries) (name : String) (data : ByteArray) (other : String) :
    (e.insert name data).get? other = if other = name then some data else e.get? other :=
  lookup_insertPair name data e.pairs other

/-- The names are those under which something is read. -/
theorem mem_names (e : Entries) (name : String) :
    name ∈ e.names ↔ (e.get? name).isSome = true := by
  rw [names, get?, List.lookup_isSome_iff, List.mem_map]
  constructor
  · rintro ⟨p, hp, rfl⟩
    exact ⟨p, hp, beq_self_eq_true p.1⟩
  · rintro ⟨p, hp, he⟩
    exact ⟨p, hp, (eq_of_beq he).symm⟩

/-! ## Order -/

theorem mem_insertPair {name : String} {data : ByteArray} {pairs : List (String × ByteArray)}
    {p : String × ByteArray} (hp : p ∈ insertPair name data pairs) :
    p = (name, data) ∨ p ∈ pairs := by
  induction pairs with
  | nil => exact .inl (List.mem_singleton.mp hp)
  | cons q pairs ih =>
    rw [insertPair] at hp
    split at hp
    · exact List.mem_cons.mp hp
    · split at hp
      · cases List.mem_cons.mp hp with
        | inl he => exact .inl he
        | inr hmem => exact .inr (List.mem_cons_of_mem q hmem)
      · cases List.mem_cons.mp hp with
        | inl he => exact .inr (he ▸ List.mem_cons_self)
        | inr hmem =>
          cases ih hmem with
          | inl he => exact .inl he
          | inr hmem => exact .inr (List.mem_cons_of_mem q hmem)

theorem sorted_empty : empty.Sorted := .nil

theorem Sorted.insert {e : Entries} (hs : e.Sorted) (name : String) (data : ByteArray) :
    (e.insert name data).Sorted := by
  have hpairs : ∀ pairs : List (String × ByteArray), pairs.Pairwise (fun p q => p.1 < q.1) →
      (insertPair name data pairs).Pairwise fun p q => p.1 < q.1 := by
    intro pairs
    induction pairs with
    | nil => exact fun _ => List.pairwise_singleton ..
    | cons q pairs ih =>
      intro hs
      obtain ⟨hfirst, hrest⟩ := List.pairwise_cons.mp hs
      rw [insertPair]
      split
      · -- The new name goes in front of a greater one, and so of all that follow.
        rename_i hlt
        refine List.pairwise_cons.mpr ⟨fun p hp => ?_, hs⟩
        cases List.mem_cons.mp hp with
        | inl he => rw [he]; exact hlt
        | inr hmem => exact String.lt_trans hlt (hfirst p hmem)
      · split
        · rename_i hsame
          exact List.pairwise_cons.mpr ⟨fun p hp => hsame ▸ hfirst p hp, hrest⟩
        · rename_i hge hne
          refine List.pairwise_cons.mpr ⟨fun p hp => ?_, ih hrest⟩
          cases mem_insertPair hp with
          | inl he =>
            rw [he]
            refine String.not_le.mp fun hle => ?_
            exact hne (String.le_antisymm hle (String.not_lt.mp hge))
          | inr hmem => exact hfirst p hmem
  exact hpairs e.pairs hs

/-- No name is listed twice. -/
theorem Sorted.names_nodup {e : Entries} (hs : e.Sorted) : e.names.Nodup := by
  rw [names, List.Nodup, List.pairwise_map]
  refine hs.imp fun {p q} hlt he => ?_
  rw [he] at hlt
  exact String.lt_irrefl q.1 hlt

end Entries

namespace MemoryArchive

/-- An archive that never fails. -/
structure Faultless (a : MemoryArchive) : Prop where
  list : a.failList = false
  read : a.failRead = []
  write : a.failWrite = []

theorem faultless_empty : empty.Faultless := ⟨rfl, rfl, rfl⟩

theorem write_of_faultless {a : MemoryArchive} (ha : a.Faultless) (name : String)
    (data : ByteArray) :
    a.write name data = ({ a with entries := a.entries.insert name data }, .ok ()) := by
  rw [MemoryArchive.write, ha.write, if_neg List.not_mem_nil]

theorem names_of_faultless {a : MemoryArchive} (ha : a.Faultless) :
    a.source.names = .ok a.entries.names := by
  rw [source, ha.list]
  rfl

theorem read_of_faultless {a : MemoryArchive} (ha : a.Faultless) {name : String}
    {data : ByteArray} (h : a.entries.get? name = some data) : a.source.read name = .ok data := by
  change a.read name = .ok data
  rw [MemoryArchive.read, ha.read, if_neg List.not_mem_nil, h]

end MemoryArchive

/-- A sink that takes every entry as it is given, or fails. Which entries it has taken shows in its
state, and a failure leaves a state that is still one of the sink's. -/
structure Sink.Tracks {σ : Type} (sink : Sink σ) (holds : Entries → σ → Prop) (torn : σ → Prop) :
    Prop where
  torn_of_holds : ∀ {e s}, holds e s → torn s
  write : ∀ {e s} (name : String) (data : ByteArray), holds e s →
    ((sink.write s name data).2 = .ok ()
        ∧ holds (e.insert name data) (sink.write s name data).1)
      ∨ ((∃ x, (sink.write s name data).2 = .error x) ∧ torn (sink.write s name data).1)

/-- A sink that takes every entry but those of folders, as long as its state has a property. -/
def Sink.Takes {σ : Type} (sink : Sink σ) (P : σ → Prop) : Prop :=
  ∀ {s} (name : String) (data : ByteArray), name.endsWith "/" = false → P s →
    (sink.write s name data).2 = .ok () ∧ P (sink.write s name data).1

theorem MemoryArchive.takes_sink : sink.Takes Faultless := by
  intro a name data _ ha
  have hwrite : sink.write a name data = _ := write_of_faultless ha name data
  rw [hwrite]
  exact ⟨rfl, ha.list, ha.read, ha.write⟩

end BlockWorld.Save
