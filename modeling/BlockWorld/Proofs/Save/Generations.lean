import BlockWorld.Proofs.Archive
import BlockWorld.Proofs.Text.Utf8
import BlockWorld.Save.Generations
import Mathlib.Data.List.Infix
/-!
What the operations on a store of generations do to its database. The keys of different generations
never meet, and none of them is the key of the current generation (`underStart_unique`,
`not_underStart_currentKey`). Publishing a generation leaves in the database the generation itself and
the mark that it is current, if all that was there before was one generation and its mark
(`Holds.publish`). Whatever else was there, the generation can then be read (`Fresh.publish`).

How the proof goes. A database is known by what is read under each key (`Sorted.ext`), so every operation is
an equation for the look-up: of the entries that were added (`get?_insertAll`), removed (`get?_dropUnder`) or
picked out with the start of their keys cut off (`get?_under`). Keys of a generation start with its identifier
and a colon, and an identifier in plain form has no colon in it; so of two identifiers that a key starts with,
one is as long as the other (`underStart_unique`). With this the equations of publishing (`get?_marked`) split
into three cases: the key of the mark, a key of the new generation, and a key of another.
-/
namespace BlockWorld.Save

/-! ## Starts of names -/

namespace Entries

/-- Whether a name starts with a text. -/
def UnderStart (start name : String) : Prop := start.toList <+: name.toList

theorem underStart_append (start name : String) : UnderStart start (start ++ name) := by
  rw [UnderStart, String.toList_append]
  exact List.prefix_append ..

theorem exists_of_underStart {start key : String} (h : UnderStart start key) :
    ∃ name, key = start ++ name := by
  obtain ⟨rest, hrest⟩ := h
  refine ⟨String.ofList rest, String.toList_inj.mp ?_⟩
  rw [String.toList_append, String.toList_ofList, hrest]

theorem append_inj (start : String) {a b : String} (h : start ++ a = start ++ b) : a = b := by
  have hlists := congrArg String.toList h
  rw [String.toList_append, String.toList_append] at hlists
  exact String.toList_inj.mp (List.append_cancel_left hlists)

theorem lt_of_append_lt (start : String) {a b : String} (h : start ++ a < start ++ b) : a < b := by
  change (start ++ a).toList < (start ++ b).toList at h
  change a.toList < b.toList
  rw [String.toList_append, String.toList_append] at h
  generalize start.toList = cs at h
  induction cs with
  | nil => exact h
  | cons c cs ih =>
    rcases List.cons_lt_cons_iff.mp h with hlt | ⟨-, hrest⟩
    · exact absurd hlt (Char.lt_irrefl c)
    · exact ih hrest

/-! ## Many entries at once -/

/-- In order, what is read under a name is what stands beside it. -/
theorem Sorted.get?_eq_some_iff {e : Entries} (he : e.Sorted) {name : String} {data : ByteArray} :
    e.get? name = some data ↔ (name, data) ∈ e.pairs := by
  obtain ⟨pairs⟩ := e
  unfold get?
  induction pairs with
  | nil => simp
  | cons p pairs ih =>
    obtain ⟨hfirst, hrest⟩ := List.pairwise_cons.mp he
    dsimp only at ih ⊢
    rw [List.lookup_cons]
    rw [List.mem_cons]
    by_cases hname : name = p.1
    · have hlater : (name, data) ∉ pairs := fun hmem =>
        String.lt_irrefl _ (hname ▸ hfirst (name, data) hmem)
      rw [or_iff_left hlater, Prod.ext_iff, beq_iff_eq.mpr hname]
      simp [hname, eq_comm]
    · have hother : ¬(name, data) = p := fun heq => hname (congrArg Prod.fst heq)
      rw [or_iff_right hother, beq_eq_false_iff_ne.mpr hname]
      exact ih hrest

/-- Entries in order are known by what is read from them. -/
theorem Sorted.ext {e f : Entries} (he : e.Sorted) (hf : f.Sorted)
    (h : ∀ name, e.get? name = f.get? name) : e = f := by
  have hmem : ∀ p, p ∈ e.pairs ↔ p ∈ f.pairs := by
    intro p
    rw [← he.get?_eq_some_iff, h, hf.get?_eq_some_iff]
  have hnodup : ∀ {d : Entries}, d.Sorted → d.pairs.Nodup := by
    intro d hd
    refine List.Pairwise.imp (fun {p q} hlt heq => ?_) hd
    rw [heq] at hlt
    exact String.lt_irrefl _ hlt
  have hperm : e.pairs.Perm f.pairs :=
    (List.perm_ext_iff_of_nodup (hnodup he) (hnodup hf)).mpr hmem
  obtain ⟨pairs⟩ := e
  obtain ⟨pairs'⟩ := f
  congr 1
  refine hperm.eq_of_pairwise (fun p q _ _ hpq hqp => ?_) he hf
  exact absurd (String.lt_trans hpq hqp) (String.lt_irrefl _)

theorem Sorted.insertAll {e : Entries} (he : e.Sorted) (others : Entries) :
    (e.insertAll others).Sorted := by
  obtain ⟨pairs⟩ := others
  unfold Entries.insertAll
  induction pairs generalizing e with
  | nil => exact he
  | cons p pairs ih => exact ih (he.insert p.1 p.2)

/-- The added entries win over those that were there. -/
theorem get?_insertAll {others : Entries} (ho : others.Sorted) (e : Entries) (name : String) :
    (e.insertAll others).get? name = (others.get? name).or (e.get? name) := by
  obtain ⟨pairs⟩ := others
  unfold Entries.insertAll
  induction pairs generalizing e with
  | nil => rfl
  | cons p pairs ih =>
    obtain ⟨hfirst, hrest⟩ := List.pairwise_cons.mp ho
    rw [List.foldl_cons, ih _ hrest, get?_insert]
    change _ = (List.lookup name (p :: pairs)).or _
    rw [List.lookup_cons]
    by_cases hname : name = p.1
    · -- The names that follow are greater.
      have hlater : (Entries.mk pairs).get? name = none := by
        refine List.lookup_eq_none_iff.mpr fun q hq => bne_iff_ne.mpr fun he => ?_
        exact String.lt_irrefl _ (hname ▸ he ▸ hfirst q hq)
      rw [hlater, if_pos hname, hname, beq_self_eq_true]
      rfl
    · rw [if_neg hname, beq_eq_false_iff_ne.mpr hname]
      rfl

theorem get?_dropUnder (e : Entries) (start name : String) :
    (e.dropUnder start).get? name
      = if start.toList.isPrefixOf name.toList then none else e.get? name := by
  obtain ⟨pairs⟩ := e
  unfold dropUnder get?
  induction pairs with
  | nil => simp
  | cons p pairs ih =>
    dsimp only at ih ⊢
    by_cases hunder : start.toList.isPrefixOf p.1.toList = true
    · rw [List.filter_cons_of_neg (by simp [hunder]), ih, List.lookup_cons]
      by_cases hname : name = p.1
      · rw [hname, if_pos hunder, if_pos hunder]
      · rw [beq_eq_false_iff_ne.mpr hname]
    · rw [List.filter_cons_of_pos (by simp [hunder]), List.lookup_cons, List.lookup_cons, ih]
      by_cases hname : name = p.1
      · have hkept : ¬start.toList.isPrefixOf name.toList = true := by rwa [hname]
        rw [beq_iff_eq.mpr hname]
        exact (if_neg hkept).symm
      · rw [beq_eq_false_iff_ne.mpr hname]

theorem Sorted.dropUnder {e : Entries} (he : e.Sorted) (start : String) :
    (e.dropUnder start).Sorted :=
  List.Pairwise.filter _ he

theorem isPrefixOf?_toList (start key : String) :
    (∃ name, key = start ++ name ∧ start.toList.isPrefixOf? key.toList = some name.toList)
      ∨ ¬UnderStart start key ∧ start.toList.isPrefixOf? key.toList = none := by
  cases h : start.toList.isPrefixOf? key.toList with
  | some rest =>
    have happend := List.isPrefixOf?_eq_some_iff_append_eq.mp h
    refine .inl ⟨String.ofList rest, String.toList_inj.mp ?_, by rw [String.toList_ofList]⟩
    rw [String.toList_append, String.toList_ofList, happend]
  | none =>
    refine .inr ⟨fun ⟨rest, hrest⟩ => ?_, rfl⟩
    rw [List.isPrefixOf?_eq_some_iff_append_eq.mpr hrest] at h
    cases h

theorem get?_under (e : Entries) (start name : String) :
    (e.under start).get? name = e.get? (start ++ name) := by
  obtain ⟨pairs⟩ := e
  unfold under get?
  induction pairs with
  | nil => rfl
  | cons p pairs ih =>
    dsimp only at ih ⊢
    rw [List.filterMap_cons, List.lookup_cons]
    rcases isPrefixOf?_toList start p.1 with ⟨rest, hkey, hrest⟩ | ⟨hout, hrest⟩
    · rw [hrest]
      dsimp only [Option.map_some]
      rw [String.ofList_toList, List.lookup_cons, ih, hkey]
      by_cases hname : name = rest
      · rw [hname, beq_self_eq_true, beq_self_eq_true]
      · rw [beq_eq_false_iff_ne.mpr hname,
          beq_eq_false_iff_ne.mpr fun h => hname (append_inj start h)]
    · have hne : start ++ name ≠ p.1 := fun h => hout (h ▸ underStart_append start name)
      rw [hrest, beq_eq_false_iff_ne.mpr hne]
      exact ih

theorem Sorted.under {e : Entries} (he : e.Sorted) (start : String) : (e.under start).Sorted := by
  refine List.Pairwise.filterMap _ (fun p q hlt p' hp q' hq => ?_) he
  rcases isPrefixOf?_toList start p.1 with ⟨a, hpa, ha⟩ | ⟨-, ha⟩
  · rcases isPrefixOf?_toList start q.1 with ⟨b, hqb, hb⟩ | ⟨-, hb⟩
    · rw [ha, Option.map_some, Option.some.injEq] at hp
      rw [hb, Option.map_some, Option.some.injEq] at hq
      rw [← hp, ← hq, String.ofList_toList, String.ofList_toList]
      rw [hpa, hqb] at hlt
      exact lt_of_append_lt start hlt
    · rw [hb] at hq
      cases hq
  · rw [ha] at hp
    cases hp

theorem get?_dropUnder_of_under {e : Entries} {start key : String} (h : UnderStart start key) :
    (e.dropUnder start).get? key = none := by
  rw [get?_dropUnder, if_pos (List.isPrefixOf_iff_prefix.mpr h)]

theorem get?_dropUnder_of_not_under {e : Entries} {start key : String}
    (h : ¬UnderStart start key) : (e.dropUnder start).get? key = e.get? key := by
  rw [get?_dropUnder, if_neg fun hp => h (List.isPrefixOf_iff_prefix.mp hp)]

/-- Where no name starts with a text, nothing is removed. -/
theorem Sorted.dropUnder_eq_self {e : Entries} (he : e.Sorted) {start : String}
    (h : ∀ key, UnderStart start key → e.get? key = none) : e.dropUnder start = e := by
  refine (he.dropUnder start).ext he fun key => ?_
  by_cases hkey : UnderStart start key
  · rw [get?_dropUnder_of_under hkey, h key hkey]
  · exact get?_dropUnder_of_not_under hkey

end Entries

open Entries

/-! ## Keys -/

theorem not_underStart_currentKey (id : String) : ¬UnderStart (generationStart id) currentKey := by
  rintro ⟨rest, hrest⟩
  rw [generationStart, String.toList_append, String.toList_append, List.append_assoc,
    List.append_assoc] at hrest
  -- Behind `save:` the key of the mark has no colon.
  have htail : id.toList ++ (":".toList ++ rest) = "current".toList :=
    List.append_cancel_left (hrest : "save:".toList ++ _ = "save:".toList ++ "current".toList)
  have hcolon : ':' ∈ "current".toList := by
    rw [← htail]
    simp
  exact absurd hcolon (by decide)

theorem idOf_underStart {id key : String} (hid : ':' ∉ id.toList)
    (h : UnderStart (generationStart id) key) :
    (key.toList.drop 5).takeWhile (· != ':') = id.toList := by
  obtain ⟨rest, hrest⟩ := h
  rw [generationStart, String.toList_append, String.toList_append, List.append_assoc,
    List.append_assoc] at hrest
  rw [← hrest]
  change (id.toList ++ ':' :: rest).takeWhile _ = _
  rw [List.takeWhile_append_of_pos]
  · simp
  · intro c hc
    exact bne_iff_ne.mpr fun he => hid (he ▸ hc)

/-- No key belongs to two generations. -/
theorem underStart_unique {a b key : String} (ha : ':' ∉ a.toList) (hb : ':' ∉ b.toList)
    (hka : UnderStart (generationStart a) key) (hkb : UnderStart (generationStart b) key) :
    a = b :=
  String.toList_inj.mp ((idOf_underStart ha hka).symm.trans (idOf_underStart hb hkb))

/-! ## Generations -/

/-- Entries that are those of one generation, given in writes of which the latest stands first. -/
structure Batch (e : Entries) (id : String) (written : List (String × ByteArray)) : Prop where
  sorted : e.Sorted
  under : ∀ name, e.get? (generationStart id ++ name) = written.lookup name
  other : ∀ key, ¬UnderStart (generationStart id) key → e.get? key = none

theorem batch_empty (id : String) : Batch .empty id [] := ⟨sorted_empty, fun _ => rfl, fun _ _ => rfl⟩

theorem Batch.insert {e : Entries} {id : String} {written : List (String × ByteArray)}
    (h : Batch e id written) (name : String) (data : ByteArray) :
    Batch (e.insert (generationStart id ++ name) data) id ((name, data) :: written) := by
  refine ⟨h.sorted.insert _ _, fun other => ?_, fun key hkey => ?_⟩
  · rw [get?_insert, h.under, List.lookup_cons]
    by_cases he : other = name
    · rw [if_pos (by rw [he]), beq_iff_eq.mpr he]
    · rw [if_neg fun heq => he (append_inj _ heq), beq_eq_false_iff_ne.mpr he]
  · have hne : key ≠ generationStart id ++ name := fun he => hkey (he ▸ underStart_append ..)
    rw [get?_insert, if_neg hne, h.other key hkey]

/-- The same with the writes kept as entries. -/
theorem Batch.insert_entries {e : Entries} {id : String} {entries : Entries}
    (h : Batch e id entries.pairs) (name : String) (data : ByteArray) :
    Batch (e.insert (generationStart id ++ name) data) id (entries.insert name data).pairs := by
  have hinsert := h.insert name data
  refine ⟨hinsert.sorted, fun other => ?_, hinsert.other⟩
  have hget : (entries.insert name data).pairs.lookup other = _ := get?_insert entries name data other
  rw [hinsert.under, hget, List.lookup_cons]
  by_cases he : other = name
  · rw [if_pos he, beq_iff_eq.mpr he]
  · rw [if_neg he, beq_eq_false_iff_ne.mpr he]
    rfl

/-- A store whose database holds one generation and the mark that it is current, and nothing else. -/
structure Generations.Holds (s : Generations) (id : String) (written : List (String × ByteArray)) :
    Prop where
  sorted : s.database.Sorted
  mark : s.database.get? currentKey = some id.toUTF8
  under : ∀ name, s.database.get? (generationStart id ++ name) = written.lookup name
  other : ∀ key, key ≠ currentKey → ¬UnderStart (generationStart id) key →
    s.database.get? key = none

namespace Generations

variable {s : Generations} {id : String} {written : List (String × ByteArray)}

theorem current_of_mark (h : s.database.get? currentKey = some id.toUTF8) :
    s.current = .ok id := by
  rw [current, h]
  simp only [String.fromUTF8?, String.toUTF8_eq_toByteArray, dif_pos id.isValidUTF8]
  rfl

theorem Holds.current (h : s.Holds id written) : s.current = .ok id := current_of_mark h.mark

theorem Holds.of_database {s' : Generations} (h : s.Holds id written)
    (hs : s'.database = s.database) : s'.Holds id written :=
  ⟨hs ▸ h.sorted, hs ▸ h.mark, hs ▸ h.under, hs ▸ h.other⟩

/-- A generation determines the database that it alone stands in. -/
theorem Holds.database_eq {s' : Generations} (h : s.Holds id written) (h' : s'.Holds id written) :
    s'.database = s.database := by
  refine h'.sorted.ext h.sorted fun key => ?_
  by_cases hmark : key = currentKey
  · rw [hmark, h'.mark, h.mark]
  · by_cases hkey : UnderStart (generationStart id) key
    · obtain ⟨name, rfl⟩ := exists_of_underStart hkey
      rw [h'.under, h.under]
    · rw [h'.other key hmark hkey, h.other key hmark hkey]

/-- Nothing stands under the keys of any other generation. -/
theorem Holds.get?_of_ne (h : s.Holds id written) (hid : ':' ∉ id.toList) {other key : String}
    (hother : ':' ∉ other.toList) (hne : other ≠ id)
    (hkey : UnderStart (generationStart other) key) : s.database.get? key = none := by
  refine h.other key ?_ ?_
  · rintro rfl
    exact not_underStart_currentKey other hkey
  · intro hunder
    exact hne (underStart_unique hother hid hkey hunder)

theorem drop_eq_self (hs : s.database.Sorted)
    (h : ∀ key, UnderStart (generationStart id) key → s.database.get? key = none) :
    s.drop id = s := by
  rw [drop, hs.dropUnder_eq_self h]

section Publish

variable {w : GenerationWriter} {mine : List (String × ByteArray)}

/-- The database after a batch has been added and marked as current. -/
def marked (s : Generations) (w : GenerationWriter) : Entries :=
  (s.database.insertAll w.batch).insert currentKey w.generation.toUTF8

theorem get?_marked (hw : Batch w.batch w.generation mine) (key : String) :
    (s.marked w).get? key
      = if key = currentKey then some w.generation.toUTF8
        else (w.batch.get? key).or (s.database.get? key) := by
  rw [marked, get?_insert, get?_insertAll hw.sorted]

theorem current_insertAll (hw : Batch w.batch w.generation mine) :
    Generations.current { s with database := s.database.insertAll w.batch } = s.current := by
  have hget : (s.database.insertAll w.batch).get? currentKey = s.database.get? currentKey := by
    rw [get?_insertAll hw.sorted, hw.other _ (not_underStart_currentKey _), Option.none_or]
  rw [Generations.current, Generations.current, hget]

theorem publish_of_noSave (hw : Batch w.batch w.generation mine)
    (h : s.current = .error .noSave) : (s.publish w).1 = { s with database := s.marked w } := by
  unfold publish
  dsimp only
  rw [current_insertAll hw, h]
  rfl

theorem publish_of_current (hw : Batch w.batch w.generation mine) (h : s.current = .ok id)
    (hid : id ≠ "") :
    (s.publish w).1
      = { s with database := (s.marked w).dropUnder (generationStart id) } := by
  unfold publish
  dsimp only
  rw [current_insertAll hw, h]
  exact congrArg Prod.fst (if_neg hid)

theorem publish_isOpen (s : Generations) (w : GenerationWriter) :
    (s.publish w).1.isOpen = s.isOpen := by
  unfold publish
  dsimp only
  split <;> rfl

theorem publish_session (s : Generations) (w : GenerationWriter) :
    (s.publish w).1.session = s.session := by
  unfold publish
  dsimp only
  split <;> rfl

theorem publish_started (s : Generations) (w : GenerationWriter) :
    (s.publish w).1.started = s.started := by
  unfold publish
  dsimp only
  split <;> rfl

/-- The first generation of a store. -/
theorem holds_publish_of_empty (hs : s.database = .empty) (hw : Batch w.batch w.generation mine) :
    (s.publish w).1.Holds w.generation mine := by
  have hnone : s.current = .error .noSave := by
    rw [Generations.current, hs]
    rfl
  have hempty : ∀ key, s.database.get? key = none := fun key => by rw [hs]; rfl
  rw [publish_of_noSave hw hnone]
  refine ⟨?_, ?_, fun name => ?_, fun key hkey hout => ?_⟩
  · exact (hs ▸ sorted_empty.insertAll w.batch).insert _ _
  · rw [get?_marked hw, if_pos rfl]
  · have hne : generationStart w.generation ++ name ≠ currentKey := fun he =>
      not_underStart_currentKey w.generation (he ▸ underStart_append ..)
    rw [get?_marked hw, if_neg hne, hempty, Option.or_none, hw.under]
  · rw [get?_marked hw, if_neg hkey, hempty, Option.or_none, hw.other key hout]

/-- A generation that replaces another one. -/
theorem Holds.publish (h : s.Holds id written) (hid : Text.Uuid.IsPlain id)
    (hw : Batch w.batch w.generation mine) (hgen : Text.Uuid.IsPlain w.generation)
    (hne : w.generation ≠ id) : (s.publish w).1.Holds w.generation mine := by
  -- What is removed is not of the new generation, and nothing else was there.
  have hold : ∀ key, UnderStart (generationStart w.generation) key →
      ¬UnderStart (generationStart id) key ∧ s.database.get? key = none := by
    intro key hkey
    refine ⟨fun hunder => hne (underStart_unique hgen.no_colon hid.no_colon hkey hunder), ?_⟩
    exact h.get?_of_ne hid.no_colon hgen.no_colon hne hkey
  rw [publish_of_current hw h.current hid.ne_empty]
  refine ⟨?_, ?_, fun name => ?_, fun key hkey hout => ?_⟩
  · exact ((h.sorted.insertAll w.batch).insert _ _).dropUnder _
  · rw [get?_dropUnder_of_not_under (not_underStart_currentKey id), get?_marked hw, if_pos rfl]
  · obtain ⟨hkept, hnone⟩ := hold _ (underStart_append (generationStart w.generation) name)
    have hne' : generationStart w.generation ++ name ≠ currentKey := fun he =>
      not_underStart_currentKey w.generation (he ▸ underStart_append ..)
    rw [get?_dropUnder_of_not_under hkept, get?_marked hw, if_neg hne', hnone, Option.or_none,
      hw.under]
  · by_cases hunder : UnderStart (generationStart id) key
    · exact get?_dropUnder_of_under hunder
    · rw [get?_dropUnder_of_not_under hunder, get?_marked hw, if_neg hkey, hw.other key hout,
        h.other key hkey hunder]
      rfl

end Publish

/-! ## Stores with other generations -/

/-- A store whose current generation has some entries. Other generations may be there as well. -/
structure Marks (s : Generations) (id : String) (e : Entries) : Prop where
  sorted : s.database.Sorted
  mark : s.database.get? currentKey = some id.toUTF8
  under : ∀ name, s.database.get? (generationStart id ++ name) = e.get? name

/-- A store that has nothing of the generations with some identifiers, which are yet to come. -/
structure Fresh (s : Generations) (ids : List String) : Prop where
  sorted : s.database.Sorted
  current : s.current = .error .noSave
    ∨ ∃ id, s.current = .ok id ∧ Text.Uuid.IsPlain id ∧ id ∉ ids
  free : ∀ id ∈ ids, ∀ key, UnderStart (generationStart id) key → s.database.get? key = none

theorem Holds.marks {e : Entries} (h : s.Holds id e.pairs) : s.Marks id e :=
  ⟨h.sorted, h.mark, h.under⟩

theorem fresh_of_empty (h : s.database = .empty) (ids : List String) : s.Fresh ids := by
  refine ⟨h ▸ Entries.sorted_empty, .inl ?_, fun _ _ _ _ => h ▸ rfl⟩
  rw [current, h]
  rfl

theorem Marks.of_database {s' : Generations} {e : Entries} (h : s.Marks id e)
    (hs : s'.database = s.database) : s'.Marks id e :=
  ⟨hs ▸ h.sorted, hs ▸ h.mark, hs ▸ h.under⟩

namespace Fresh

variable {ids : List String}

theorem of_database {s' : Generations} (h : s.Fresh ids) (hs : s'.database = s.database) :
    s'.Fresh ids := by
  refine ⟨hs ▸ h.sorted, ?_, hs ▸ h.free⟩
  rw [Generations.current, hs]
  exact h.current

theorem of_subset {others : List String} (h : s.Fresh ids) (hsub : others ⊆ ids) :
    s.Fresh others := by
  refine ⟨h.sorted, ?_, fun id hid => h.free id (hsub hid)⟩
  obtain hnone | ⟨held, hheld, hplain, hout⟩ := h.current
  · exact .inl hnone
  · exact .inr ⟨held, hheld, hplain, fun hmem => hout (hsub hmem)⟩

theorem drop (h : s.Fresh (id :: ids)) : s.drop id = s :=
  drop_eq_self h.sorted (h.free id List.mem_cons_self)

section Publish

variable {w : GenerationWriter} {e : Entries}

/-- Publishing marks the generation, and removes nothing of those to come. -/
theorem database_publish (h : s.Fresh ids) (hplain : ∀ id ∈ ids, Text.Uuid.IsPlain id)
    (hw : Batch w.batch w.generation e.pairs) :
    (s.publish w).1.database.Sorted
      ∧ (s.publish w).1.database.get? currentKey = some w.generation.toUTF8
      ∧ ∀ id ∈ ids, ∀ key, UnderStart (generationStart id) key →
        (s.publish w).1.database.get? key = (w.batch.get? key).or (s.database.get? key) := by
  have hsorted : (s.marked w).Sorted := (h.sorted.insertAll w.batch).insert _ _
  have hmark : (s.marked w).get? currentKey = some w.generation.toUTF8 := by
    rw [get?_marked hw, if_pos rfl]
  have hunder : ∀ id key, UnderStart (generationStart id) key →
      (s.marked w).get? key = (w.batch.get? key).or (s.database.get? key) := by
    intro id key hkey
    have hne : key ≠ currentKey := fun he => not_underStart_currentKey id (he ▸ hkey)
    rw [get?_marked hw, if_neg hne]
  obtain hnone | ⟨held, hheld, hold, hout⟩ := h.current
  · rw [publish_of_noSave hw hnone]
    exact ⟨hsorted, hmark, fun id _ key hkey => hunder id key hkey⟩
  · rw [publish_of_current hw hheld hold.ne_empty]
    refine ⟨hsorted.dropUnder _, ?_, fun id hid key hkey => ?_⟩
    · rw [get?_dropUnder_of_not_under (not_underStart_currentKey held), hmark]
    · have hkept : ¬UnderStart (generationStart held) key := fun hunder => hout
        (underStart_unique hold.no_colon (hplain id hid).no_colon hunder hkey ▸ hid)
      rw [get?_dropUnder_of_not_under hkept, hunder id key hkey]

theorem publish (h : s.Fresh (w.generation :: ids))
    (hplain : ∀ id ∈ w.generation :: ids, Text.Uuid.IsPlain id) (hnew : w.generation ∉ ids)
    (hw : Batch w.batch w.generation e.pairs) :
    (s.publish w).1.Fresh ids ∧ (s.publish w).1.Marks w.generation e := by
  obtain ⟨hsorted, hmark, hget⟩ := h.database_publish hplain hw
  have hgen : Text.Uuid.IsPlain w.generation := hplain _ List.mem_cons_self
  refine ⟨⟨hsorted, .inr ⟨_, current_of_mark hmark, hgen, hnew⟩, fun id hid key hkey => ?_⟩,
    hsorted, hmark, fun name => ?_⟩
  · have hmem := List.mem_cons_of_mem w.generation hid
    have hother : ¬UnderStart (generationStart w.generation) key := fun hunder => hnew
      (underStart_unique hgen.no_colon (hplain id hmem).no_colon hunder hkey ▸ hid)
    rw [hget id hmem key hkey, hw.other key hother, h.free id hmem key hkey]
    rfl
  · have hkey := underStart_append (generationStart w.generation) name
    rw [hget _ List.mem_cons_self _ hkey, h.free _ List.mem_cons_self _ hkey, Option.or_none, hw.under]
    rfl

end Publish

end Fresh

/-! ## Readers -/

/-- A source that shows what was given in some writes: it lists their names in the order of their
bytes, each once, and gives the latest bytes of each. -/
structure Shows (source : Source) (written : List (String × ByteArray)) : Prop where
  names : ∃ names, source.names = .ok names
    ∧ names.Pairwise (fun a b => Text.bytes a < Text.bytes b)
    ∧ ∀ name, name ∈ names ↔ ∃ data, (name, data) ∈ written
  read : ∀ {name data}, written.lookup name = some data → source.read name = .ok data
  absent : ∀ {name}, written.lookup name = none → source.read name = .error (.absentEntry name)

theorem shows_source {r : GenerationReader} (hr : s.serves r.session = true)
    (hs : s.database.Sorted)
    (h : ∀ name, s.database.get? (generationStart r.generation ++ name) = written.lookup name) :
    Shows (s.source r) written := by
  rw [source, if_pos hr]
  refine ⟨⟨_, rfl, ?_, fun name => ?_⟩, fun {name data} hlook => ?_, fun {name} hlook => ?_⟩
  · refine List.pairwise_map.mpr (List.Pairwise.imp Text.bytes_lt ?_)
    exact hs.under _
  · rw [mem_names, get?_under, h, List.lookup_isSome_iff]
    constructor
    · rintro ⟨⟨other, data⟩, hmem, he⟩
      exact ⟨data, eq_of_beq he ▸ hmem⟩
    · rintro ⟨data, hmem⟩
      exact ⟨(name, data), hmem, beq_self_eq_true name⟩
  · dsimp only [Generations.read]
    rw [h, hlook]
  · dsimp only [Generations.read]
    rw [h, hlook]

/-- A reader of the current generation sees the entries of its save, and nothing else. -/
theorem Marks.source_eq {e : Entries} (h : s.Marks id e) (he : e.Sorted)
    (hopen : s.isOpen = true) : s.source ⟨s.session, id⟩ = e.source := by
  have hserves : s.serves s.session = true := by simp [serves, hopen]
  have hunder : s.database.under (generationStart id) = e := by
    refine (h.sorted.under _).ext he fun name => ?_
    rw [get?_under, h.under]
  rw [source, if_pos hserves, hunder, Entries.source]
  congr 1
  funext name
  cases hget : e.get? name <;> simp only [Generations.read, h.under, hget]

theorem Holds.source_eq {e : Entries} (h : s.Holds id e.pairs) (he : e.Sorted)
    (hopen : s.isOpen = true) : s.source ⟨s.session, id⟩ = e.source :=
  h.marks.source_eq he hopen

theorem source_eq_of_database {s' : Generations} {r : GenerationReader}
    (hr : s.serves r.session = true) (hr' : s'.serves r.session = true)
    (hs : s'.database = s.database) : s'.source r = s.source r := by
  rw [source, source, if_pos hr, if_pos hr', hs]
  congr 1
  funext name
  rw [Generations.read, Generations.read, hs]

/-- A source without entries. -/
def vacantSource : Source := ⟨.ok [], fun name => .error (.absentEntry name)⟩

/-- What a reader sees of a generation that is gone. -/
theorem source_eq_vacantSource {r : GenerationReader} (hr : s.serves r.session = true)
    (hs : s.database.Sorted)
    (h : ∀ key, UnderStart (generationStart r.generation) key → s.database.get? key = none) :
    s.source r = vacantSource := by
  have hnone : ∀ name, s.database.get? (generationStart r.generation ++ name) = none :=
    fun name => h _ (underStart_append ..)
  have hempty : s.database.under (generationStart r.generation) = .empty := by
    refine (hs.under _).ext sorted_empty fun name => ?_
    rw [get?_under, hnone]
    rfl
  rw [source, if_pos hr, hempty, vacantSource]
  congr 1
  funext name
  rw [Generations.read, hnone]

end Generations

end BlockWorld.Save
