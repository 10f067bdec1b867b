import BlockWorld.Proofs.Save.Generations
/-!
Several writers on one store of generations. Their steps come in any order. What a reader sees depends
on the writer that was closed last and on nothing else: `Ledger` keeps the books on what each writer
was given and which one was closed last, without any store, and the store follows the books step by
step (`Workshop.Follows.step`, `Workshop.follows_run`).

How the proof goes. `Workshop.Follows` relates a store with its writers to the books. The database holds the
draft that was closed last and nothing else (`Holds`), and each writer has the batch of its draft, under an
identifier of its own. There is one lemma for each kind of step. Writing and giving up leave the database
alone, so only the one writer has to be looked at (`Workshop.Follows.set_open`); closing removes the
generation before and leaves the store to the new one (`Workshop.Follows.holds_publish`). A step for a writer
that is closed, given up or not there does nothing on either side (`step_write_of_idle`, `step_close_of_idle`,
`step_abort_of_idle`). Identifiers of steps to come are new ones, which is the hypothesis that the induction
carries along.
-/
namespace BlockWorld.Save

open Entries

/-- A step of one of the writers, which are numbered in the order of their creation. -/
inductive WriterStep where
  /-- A new writer whose generation has the given identifier. -/
  | create (id : String)
  | write (i : Nat) (name : String) (data : ByteArray)
  | close (i : Nat)
  | abort (i : Nat)

/-- The identifiers of the generations that some steps start. -/
def WriterStep.ids (steps : List WriterStep) : List String :=
  steps.filterMap fun
    | .create id => some id
    | _ => none

theorem WriterStep.ids_append (before after : List WriterStep) :
    ids (before ++ after) = ids before ++ ids after :=
  List.filterMap_append

/-! ## The store -/

/-- A store and its writers. -/
structure Workshop where
  store : Generations
  writers : List GenerationWriter

namespace Workshop

/-- Takes a step; a writer that is not there does nothing. -/
def step (t : Workshop) : WriterStep → Workshop
  | .create id =>
    match t.store.start id with
    | (s, .ok w) => ⟨s, t.writers ++ [w]⟩
    | (s, .error _) => ⟨s, t.writers⟩
  | .write i name data =>
    match t.writers[i]? with
    | none => t
    | some w => ⟨t.store, t.writers.set i (w.write name data).1⟩
  | .close i =>
    match t.writers[i]? with
    | none => t
    | some w => ⟨(t.store.finish w).1, t.writers.set i (t.store.finish w).2.1⟩
  | .abort i =>
    match t.writers[i]? with
    | none => t
    | some w => ⟨(t.store.abort w).1, t.writers.set i (t.store.abort w).2.1⟩

/-- Takes several steps. -/
def run (t : Workshop) (steps : List WriterStep) : Workshop := steps.foldl step t

end Workshop

/-! ## The books -/

/-- How far a writer has come. -/
inductive Phase where
  | writing
  | closed
  | aborted
  deriving DecidableEq

/-- A writer in the books: what it was given, the latest first, and how far it has come. -/
structure Draft where
  written : List (String × ByteArray)
  phase : Phase

/-- The writers in the books, and the number of the one that was closed last. -/
structure Ledger where
  drafts : List Draft
  latest : Option Nat

namespace Ledger

/-- The books before the first step. -/
def blank : Ledger := ⟨[], none⟩

/-- The draft of a writer that still takes more. -/
def writing? (l : Ledger) (i : Nat) : Option Draft := l.drafts[i]?.filter (·.phase = .writing)

/-- Takes a step; a writer that is not there, or is closed or aborted, does nothing. -/
def step (l : Ledger) : WriterStep → Ledger
  | .create _ => { l with drafts := l.drafts ++ [⟨[], .writing⟩] }
  | .write i name data =>
    match l.writing? i with
    | none => l
    | some d => { l with drafts := l.drafts.set i { d with written := (name, data) :: d.written } }
  | .close i =>
    match l.writing? i with
    | none => l
    | some d => ⟨l.drafts.set i { d with phase := .closed }, some i⟩
  | .abort i =>
    match l.writing? i with
    | none => l
    | some d => { l with drafts := l.drafts.set i { d with phase := .aborted } }

/-- Takes several steps. -/
def run (l : Ledger) (steps : List WriterStep) : Ledger := steps.foldl step l

end Ledger

/-- A step that closes a writer which is not closed or aborted yet. -/
def WriterStep.Commits (a : WriterStep) (l : Ledger) : Prop :=
  ∃ i, a = .close i ∧ (l.writing? i).isSome = true

/-! ## The store follows the books -/

/-- A writer that stands as its draft says. -/
structure GenerationWriter.Follows (w : GenerationWriter) (session : Nat) (d : Draft) : Prop where
  session_eq : w.session = session
  finished_iff : w.finished = false ↔ d.phase = .writing
  plain : Text.Uuid.IsPlain w.generation
  batch : Batch w.batch w.generation d.written

/-- A store and its writers that stand as the books say: the writers have generations of their own,
and the store holds nothing, or the generation of the writer that was closed last. -/
structure Workshop.Follows (t : Workshop) (l : Ledger) : Prop where
  isOpen : t.store.isOpen = true
  distinct : (t.writers.map (·.generation)).Nodup
  length : t.writers.length = l.drafts.length
  writer : ∀ {i : Nat} {w : GenerationWriter} {d : Draft}, t.writers[i]? = some w →
    l.drafts[i]? = some d → w.Follows t.store.session d
  vacant : l.latest = none → t.store.database = .empty ∧ ∀ d ∈ l.drafts, d.phase ≠ .closed
  holds : ∀ {i : Nat}, l.latest = some i → ∃ w d, t.writers[i]? = some w
    ∧ l.drafts[i]? = some d ∧ d.phase = .closed ∧ t.store.Holds w.generation d.written

theorem set_eq_self {α : Type} {xs : List α} {i : Nat} {x : α} (h : xs[i]? = some x) :
    xs.set i x = xs := by
  obtain ⟨hi, rfl⟩ := List.getElem?_eq_some_iff.mp h
  exact List.set_getElem_self hi

namespace Ledger

variable {l : Ledger} {i : Nat} {d : Draft}

theorem writing?_eq_some_iff :
    l.writing? i = some d ↔ l.drafts[i]? = some d ∧ d.phase = .writing := by
  rw [writing?, Option.filter_eq_some_iff, decide_eq_true_eq]

end Ledger

namespace Workshop

variable {t : Workshop} {l : Ledger} {i : Nat} {w : GenerationWriter} {d : Draft}

theorem Follows.exists_draft (h : t.Follows l) (hw : t.writers[i]? = some w) :
    ∃ d, l.drafts[i]? = some d ∧ w.Follows t.store.session d := by
  have hi : i < l.drafts.length := h.length ▸ (List.getElem?_eq_some_iff.mp hw).1
  exact ⟨_, List.getElem?_eq_getElem hi, h.writer hw (List.getElem?_eq_getElem hi)⟩

theorem Follows.exists_writer (h : t.Follows l) (hd : l.drafts[i]? = some d) :
    ∃ w, t.writers[i]? = some w ∧ w.Follows t.store.session d := by
  have hi : i < t.writers.length := h.length ▸ (List.getElem?_eq_some_iff.mp hd).1
  exact ⟨_, List.getElem?_eq_getElem hi, h.writer (List.getElem?_eq_getElem hi) hd⟩

/-- A writer that the books show as writing is open, and no other one is. -/
theorem Follows.writing_cases (h : t.Follows l) (i : Nat) :
    (l.writing? i = none ∧ ∀ w, t.writers[i]? = some w → w.finished = true)
      ∨ ∃ w d, t.writers[i]? = some w ∧ l.drafts[i]? = some d ∧ l.writing? i = some d
        ∧ w.finished = false ∧ w.Follows t.store.session d := by
  cases hl : l.writing? i with
  | none =>
    refine .inl ⟨rfl, fun w hw => ?_⟩
    obtain ⟨d, hd, hfollows⟩ := h.exists_draft hw
    rw [← Bool.not_eq_false]
    intro hopen
    rw [Ledger.writing?_eq_some_iff.mpr ⟨hd, hfollows.finished_iff.mp hopen⟩] at hl
    cases hl
  | some d =>
    obtain ⟨hd, hphase⟩ := Ledger.writing?_eq_some_iff.mp hl
    obtain ⟨w, hw, hfollows⟩ := h.exists_writer hd
    exact .inr ⟨w, d, hw, hd, rfl, hfollows.finished_iff.mpr hphase, hfollows⟩

theorem step_create_eq (hopen : t.store.isOpen = true) (id : String) :
    t.step (.create id) = ⟨{ t.store with started := t.store.started + 1 },
      t.writers ++ [⟨t.store.session, id, .empty, false⟩]⟩ := by
  rw [step, Generations.start, if_pos hopen]

/-- A writer that is open is not one that the books show as closed. -/
theorem Follows.ne_of_closed (h : t.Follows l) (hw : t.writers[i]? = some w)
    (hopen : w.finished = false) {j : Nat} {e : Draft} (he : l.drafts[j]? = some e)
    (hclosed : e.phase = .closed) : i ≠ j := by
  rintro rfl
  rw [(h.writer hw he).finished_iff.mp hopen] at hclosed
  cases hclosed

/-! ### Steps of a writer that is not open -/

section Idle

variable (hidle : ∀ w, t.writers[i]? = some w → w.finished = true)
include hidle

theorem step_write_of_idle (name : String) (data : ByteArray) :
    t.step (.write i name data) = t := by
  rw [step]
  cases hw : t.writers[i]? with
  | none => rfl
  | some w =>
    dsimp only
    rw [GenerationWriter.write, if_pos (hidle w hw), set_eq_self hw]

theorem step_close_of_idle : t.step (.close i) = t := by
  rw [step]
  cases hw : t.writers[i]? with
  | none => rfl
  | some w =>
    dsimp only
    rw [Generations.finish, if_pos (hidle w hw), set_eq_self hw]

theorem step_abort_of_idle : t.step (.abort i) = t := by
  rw [step]
  cases hw : t.writers[i]? with
  | none => rfl
  | some w =>
    dsimp only
    rw [Generations.abort, if_pos (hidle w hw), set_eq_self hw]

end Idle

/-! ### Steps of an open writer -/

section Open

variable (hw : t.writers[i]? = some w) (hopen : w.finished = false)
include hw hopen

theorem step_write_of_open (name : String) (data : ByteArray) :
    t.step (.write i name data) = ⟨t.store, t.writers.set i
      { w with batch := w.batch.insert (generationStart w.generation ++ name) data }⟩ := by
  have hclosed : ¬w.finished = true := by simp [hopen]
  rw [step, hw]
  dsimp only
  rw [GenerationWriter.write, if_neg hclosed]

theorem step_close_of_open (hserves : t.store.serves w.session = true) :
    t.step (.close i)
      = ⟨(t.store.publish w).1, t.writers.set i { w with finished := true }⟩ := by
  have hclosed : ¬w.finished = true := by simp [hopen]
  rw [step, hw]
  dsimp only
  rw [Generations.finish, if_neg hclosed]
  dsimp only
  rw [if_pos hserves]

theorem step_abort_of_open :
    t.step (.abort i)
      = ⟨t.store.drop w.generation, t.writers.set i { w with finished := true }⟩ := by
  have hclosed : ¬w.finished = true := by simp [hopen]
  rw [step, hw]
  dsimp only
  rw [Generations.abort, if_neg hclosed]

end Open

theorem Follows.serves (h : t.Follows l) (hfollows : w.Follows t.store.session d) :
    t.store.serves w.session = true := by
  rw [Generations.serves, h.isOpen, hfollows.session_eq, beq_self_eq_true]
  rfl

/-- The writers and their drafts after one of them, which was open, took a step. -/
theorem Follows.writer_set (h : t.Follows l) (hw : t.writers[i]? = some w)
    {w' : GenerationWriter} {d' : Draft} (hw' : w'.Follows t.store.session d')
    {j : Nat} {v : GenerationWriter} {e : Draft} (hv : (t.writers.set i w')[j]? = some v)
    (he : (l.drafts.set i d')[j]? = some e) : v.Follows t.store.session e := by
  obtain ⟨hi, -⟩ := List.getElem?_eq_some_iff.mp hw
  by_cases hij : i = j
  · subst hij
    rw [List.getElem?_set_self hi, Option.some.injEq] at hv
    rw [List.getElem?_set_self (h.length ▸ hi), Option.some.injEq] at he
    rw [← hv, ← he]
    exact hw'
  · rw [List.getElem?_set_ne hij] at hv he
    exact h.writer hv he

theorem generations_set (hw : t.writers[i]? = some w) {w' : GenerationWriter}
    (hgen : w'.generation = w.generation) :
    (t.writers.set i w').map (·.generation) = t.writers.map (·.generation) := by
  rw [List.map_set, hgen]
  exact set_eq_self (by rw [List.getElem?_map, hw]; rfl)

/-- An open writer that leaves the database alone may change as it likes. -/
theorem Follows.set_open (h : t.Follows l) (hw : t.writers[i]? = some w)
    (hopen : w.finished = false) {w' : GenerationWriter} {d' : Draft}
    (hgen : w'.generation = w.generation) (hw' : w'.Follows t.store.session d')
    (hphase : d'.phase ≠ .closed) :
    Follows ⟨t.store, t.writers.set i w'⟩ { l with drafts := l.drafts.set i d' } := by
  refine ⟨h.isOpen, ?_, ?_, h.writer_set hw hw', fun hnone => ?_, fun {j} hj => ?_⟩
  · rw [generations_set hw hgen]
    exact h.distinct
  · rw [List.length_set, List.length_set, h.length]
  · obtain ⟨hempty, hnever⟩ := h.vacant hnone
    refine ⟨hempty, fun e he => ?_⟩
    rcases List.mem_or_eq_of_mem_set he with hmem | rfl
    · exact hnever e hmem
    · exact hphase
  · -- The writer that holds the store is closed, and so is another one.
    obtain ⟨v, e, hv, he, hclosed, hholds⟩ := h.holds hj
    have hij := h.ne_of_closed hw hopen he hclosed
    refine ⟨v, e, ?_, ?_, hclosed, hholds⟩
    · exact (List.getElem?_set_ne hij).trans hv
    · exact (List.getElem?_set_ne hij).trans he

theorem Follows.generation_ne (h : t.Follows l) {j : Nat} {v : GenerationWriter}
    (hw : t.writers[i]? = some w) (hv : t.writers[j]? = some v) (hij : i ≠ j) :
    w.generation ≠ v.generation := by
  intro hsame
  have hi : i < (t.writers.map (·.generation)).length := by
    rw [List.length_map]
    exact (List.getElem?_eq_some_iff.mp hw).1
  refine hij ((List.getElem?_inj hi h.distinct).mp ?_)
  rw [List.getElem?_map, List.getElem?_map, hw, hv, Option.map_some, Option.map_some, hsame]

/-- Nothing of an open writer is in the database. -/
theorem Follows.get?_of_open (h : t.Follows l) (hw : t.writers[i]? = some w)
    (hopen : w.finished = false) {key : String} (hkey : UnderStart (generationStart w.generation) key) :
    t.store.database.get? key = none := by
  cases hlatest : l.latest with
  | none =>
    rw [(h.vacant hlatest).1]
    rfl
  | some j =>
    obtain ⟨v, e, hv, he, hclosed, hholds⟩ := h.holds hlatest
    obtain ⟨d, hd, hfollows⟩ := h.exists_draft hw
    have hij := h.ne_of_closed hw hopen he hclosed
    exact hholds.get?_of_ne (h.writer hv he).plain.no_colon hfollows.plain.no_colon
      (h.generation_ne hw hv hij) hkey

theorem Follows.sorted (h : t.Follows l) : t.store.database.Sorted := by
  cases hlatest : l.latest with
  | none => exact (h.vacant hlatest).1 ▸ sorted_empty
  | some j =>
    obtain ⟨_, _, _, _, _, hholds⟩ := h.holds hlatest
    exact hholds.sorted

theorem Follows.drop_of_open (h : t.Follows l) (hw : t.writers[i]? = some w)
    (hopen : w.finished = false) : t.store.drop w.generation = t.store :=
  Generations.drop_eq_self h.sorted fun _ => h.get?_of_open hw hopen

/-- A writer that publishes leaves the store to its generation. -/
theorem Follows.holds_publish (h : t.Follows l) (hw : t.writers[i]? = some w)
    (hopen : w.finished = false) (hfollows : w.Follows t.store.session d) :
    (t.store.publish w).1.Holds w.generation d.written := by
  cases hlatest : l.latest with
  | none => exact Generations.holds_publish_of_empty (h.vacant hlatest).1 hfollows.batch
  | some j =>
    obtain ⟨v, e, hv, he, hclosed, hholds⟩ := h.holds hlatest
    have hij := h.ne_of_closed hw hopen he hclosed
    exact hholds.publish (h.writer hv he).plain hfollows.batch hfollows.plain
      (h.generation_ne hw hv hij)

/-! ### One step, and several -/

theorem follows_blank {s : Generations} (hopen : s.isOpen = true) (hempty : s.database = .empty) :
    Follows ⟨s, []⟩ .blank := by
  refine ⟨hopen, .nil, rfl, fun {i w d} hw => ?_, fun _ => ⟨hempty, ?_⟩, fun {i} hi => ?_⟩
  · cases hw
  · intro d hd
    cases hd
  · cases hi

theorem Follows.step_create (h : t.Follows l) {id : String} (hplain : Text.Uuid.IsPlain id)
    (hfresh : id ∉ t.writers.map (·.generation)) :
    (t.step (.create id)).Follows (l.step (.create id)) := by
  rw [step_create_eq h.isOpen]
  refine ⟨h.isOpen, ?_, ?_, fun {j v e} hv he => ?_, fun hnone => ?_, fun {j} hj => ?_⟩
  · rw [List.map_append, List.nodup_append]
    refine ⟨h.distinct, List.pairwise_singleton .., fun a ha b hb hab => ?_⟩
    rw [List.map_singleton, List.mem_singleton] at hb
    rw [hab, hb] at ha
    exact hfresh ha
  · rw [Ledger.step, List.length_append, List.length_append, h.length]
    rfl
  · rw [Ledger.step] at he
    dsimp only at hv he
    rcases Nat.lt_or_ge j t.writers.length with hlt | hge
    · rw [List.getElem?_append_left hlt] at hv
      rw [List.getElem?_append_left (h.length ▸ hlt)] at he
      exact h.writer hv he
    · rw [List.getElem?_append_right hge, List.getElem?_singleton] at hv
      rw [List.getElem?_append_right (h.length ▸ hge), List.getElem?_singleton] at he
      split at hv
      · split at he
        · obtain rfl := Option.some.inj hv
          obtain rfl := Option.some.inj he
          exact ⟨rfl, by simp, hplain, batch_empty id⟩
        · cases he
      · cases hv
  · obtain ⟨hempty, hnever⟩ := h.vacant hnone
    refine ⟨hempty, fun e he => ?_⟩
    rcases List.mem_append.mp he with hmem | hmem
    · exact hnever e hmem
    · rw [List.mem_singleton.mp hmem]
      simp
  · obtain ⟨v, e, hv, he, hclosed, hholds⟩ := h.holds hj
    refine ⟨v, e, ?_, ?_, hclosed, hholds.of_database rfl⟩
    · exact (List.getElem?_append_left (List.getElem?_eq_some_iff.mp hv).1).trans hv
    · exact (List.getElem?_append_left (List.getElem?_eq_some_iff.mp he).1).trans he

theorem Follows.step_write (h : t.Follows l) (i : Nat) (name : String) (data : ByteArray) :
    (t.step (.write i name data)).Follows (l.step (.write i name data)) := by
  rw [Ledger.step]
  rcases h.writing_cases i with ⟨hnone, hidle⟩ | ⟨w, d, hw, hd, hsome, hopen, hfollows⟩
  · rw [hnone, step_write_of_idle hidle]
    exact h
  · rw [hsome, step_write_of_open hw hopen]
    have hphase := hfollows.finished_iff.mp hopen
    refine h.set_open hw hopen rfl ?_ (by simp [hphase])
    exact ⟨hfollows.session_eq, hfollows.finished_iff, hfollows.plain,
      hfollows.batch.insert name data⟩

theorem Follows.step_abort (h : t.Follows l) (i : Nat) :
    (t.step (.abort i)).Follows (l.step (.abort i)) := by
  rw [Ledger.step]
  rcases h.writing_cases i with ⟨hnone, hidle⟩ | ⟨w, d, hw, hd, hsome, hopen, hfollows⟩
  · rw [hnone, step_abort_of_idle hidle]
    exact h
  · rw [hsome, step_abort_of_open hw hopen, h.drop_of_open hw hopen]
    refine h.set_open hw hopen rfl ?_ (by simp)
    exact ⟨hfollows.session_eq, by simp, hfollows.plain, hfollows.batch⟩

theorem Follows.step_close (h : t.Follows l) (i : Nat) :
    (t.step (.close i)).Follows (l.step (.close i)) := by
  rw [Ledger.step]
  rcases h.writing_cases i with ⟨hnone, hidle⟩ | ⟨w, d, hw, hd, hsome, hopen, hfollows⟩
  · rw [hnone, step_close_of_idle hidle]
    exact h
  · rw [hsome, step_close_of_open hw hopen (h.serves hfollows)]
    obtain ⟨hi, -⟩ := List.getElem?_eq_some_iff.mp hw
    have hsession : (t.store.publish w).1.session = t.store.session :=
      Generations.publish_session ..
    refine ⟨?_, ?_, ?_, ?_, fun hnone => ?_, fun {j} hj => ?_⟩
    · exact (Generations.publish_isOpen ..).trans h.isOpen
    · have hsame : ({ w with finished := true } : GenerationWriter).generation = w.generation := rfl
      rw [generations_set hw hsame]
      exact h.distinct
    · rw [List.length_set, List.length_set, h.length]
    · intro j v e hv he
      have hdone : ({ w with finished := true } : GenerationWriter).Follows t.store.session
          { d with phase := .closed } :=
        ⟨hfollows.session_eq, by simp, hfollows.plain, hfollows.batch⟩
      rw [hsession]
      exact h.writer_set hw hdone hv he
    · cases hnone
    · obtain rfl := Option.some.inj hj
      refine ⟨{ w with finished := true }, { d with phase := .closed }, ?_, ?_, rfl, ?_⟩
      · exact List.getElem?_set_self hi
      · exact List.getElem?_set_self (h.length ▸ hi)
      · have hholds := h.holds_publish hw hopen hfollows
        exact hholds

/-- A step, with a new identifier if it needs one. -/
theorem Follows.step (h : t.Follows l) (a : WriterStep)
    (ha : ∀ id, a = .create id → Text.Uuid.IsPlain id ∧ id ∉ t.writers.map (·.generation)) :
    (t.step a).Follows (l.step a) := by
  cases a with
  | create id => exact h.step_create (ha id rfl).1 (ha id rfl).2
  | write i name data => exact h.step_write i name data
  | close i => exact h.step_close i
  | abort i => exact h.step_abort i

/-- A step that closes no writer leaves the database as it is. -/
theorem Follows.database_step (h : t.Follows l) {a : WriterStep} (ha : ¬a.Commits l) :
    (t.step a).store.database = t.store.database := by
  cases a with
  | create id => rw [step_create_eq h.isOpen]
  | write i name data =>
    rcases h.writing_cases i with ⟨-, hidle⟩ | ⟨w, d, hw, hd, hsome, hopen, hfollows⟩
    · rw [step_write_of_idle hidle]
    · rw [step_write_of_open hw hopen]
  | close i =>
    rcases h.writing_cases i with ⟨-, hidle⟩ | ⟨w, d, hw, hd, hsome, hopen, hfollows⟩
    · rw [step_close_of_idle hidle]
    · exact absurd ⟨i, rfl, by rw [hsome]; rfl⟩ ha
  | abort i =>
    rcases h.writing_cases i with ⟨-, hidle⟩ | ⟨w, d, hw, hd, hsome, hopen, hfollows⟩
    · rw [step_abort_of_idle hidle]
    · rw [step_abort_of_open hw hopen, h.drop_of_open hw hopen]

theorem Follows.generations_step (h : t.Follows l) (a : WriterStep) :
    (t.step a).writers.map (·.generation)
      = t.writers.map (·.generation) ++ WriterStep.ids [a] := by
  cases a with
  | create id =>
    rw [step_create_eq h.isOpen, List.map_append]
    rfl
  | write i name data =>
    rw [show WriterStep.ids [.write i name data] = [] from rfl, List.append_nil]
    rcases h.writing_cases i with ⟨-, hidle⟩ | ⟨w, d, hw, hd, hsome, hopen, hfollows⟩
    · rw [step_write_of_idle hidle]
    · rw [step_write_of_open hw hopen]
      exact generations_set hw rfl
  | close i =>
    rw [show WriterStep.ids [.close i] = [] from rfl, List.append_nil]
    rcases h.writing_cases i with ⟨-, hidle⟩ | ⟨w, d, hw, hd, hsome, hopen, hfollows⟩
    · rw [step_close_of_idle hidle]
    · rw [step_close_of_open hw hopen (h.serves hfollows)]
      exact generations_set hw rfl
  | abort i =>
    rw [show WriterStep.ids [.abort i] = [] from rfl, List.append_nil]
    rcases h.writing_cases i with ⟨-, hidle⟩ | ⟨w, d, hw, hd, hsome, hopen, hfollows⟩
    · rw [step_abort_of_idle hidle]
    · rw [step_abort_of_open hw hopen]
      exact generations_set hw rfl

/-- Several steps, with new identifiers. -/
theorem follows_run (h : t.Follows l) (steps : List WriterStep)
    (hids : (t.writers.map (·.generation) ++ WriterStep.ids steps).Nodup)
    (hplain : ∀ id ∈ WriterStep.ids steps, Text.Uuid.IsPlain id) :
    (t.run steps).Follows (l.run steps)
      ∧ (t.run steps).writers.map (·.generation)
        = t.writers.map (·.generation) ++ WriterStep.ids steps := by
  induction steps generalizing t l with
  | nil => exact ⟨h, (List.append_nil _).symm⟩
  | cons a steps ih =>
    -- The identifiers in use stand before those still to come, so that a step moves one over.
    change (t.writers.map (·.generation) ++ WriterStep.ids ([a] ++ steps)).Nodup at hids
    change ∀ id ∈ WriterStep.ids ([a] ++ steps), Text.Uuid.IsPlain id at hplain
    rw [WriterStep.ids_append [a] steps] at hids hplain
    have hstep : (t.step a).Follows (l.step a) := by
      refine h.step a fun id hid => ?_
      subst hid
      have hmem : id ∈ WriterStep.ids [.create id] := List.mem_singleton.mpr rfl
      refine ⟨hplain id (List.mem_append_left _ hmem), fun hold => ?_⟩
      exact (List.nodup_append.mp hids).2.2 id hold id (List.mem_append_left _ hmem) rfl
    have hgens := h.generations_step a
    obtain ⟨hrun, hall⟩ := ih hstep (by rwa [hgens, List.append_assoc])
      fun id hid => hplain id (List.mem_append_right _ hid)
    refine ⟨hrun, hall.trans ?_⟩
    rw [hgens, List.append_assoc, ← WriterStep.ids_append]
    rfl

end Workshop

end BlockWorld.Save
