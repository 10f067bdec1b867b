import BlockWorld.Proofs.Save.Interleaving
/-!
Readers on a store with several writers. A new reader sees the writer that was closed last and nothing
of any other (`run_readers_isolated`). A reader that stays open keeps seeing its generation until the
next writer is closed, and from then on it sees an archive without entries (`Workshop.Follows.source_run`).

How the proof goes. What a new reader sees follows from the books at that moment
(`Workshop.Follows.newReader`). For a reader that stays open the run is cut at the moment when it was made,
and the rest is gone through step by step. As long as no other writer is closed the database is the same. The
first that is closed removes the reader's generation (`Workshop.Follows.get?_step_of_commits`), and it does
not come back: a draft that is closed stays as it is, and never is the latest again once another has been
(`latest_of_append`).
-/
namespace BlockWorld.Save

open Entries

namespace Workshop

variable {t : Workshop} {l : Ledger} {i : Nat} {w : GenerationWriter} {d : Draft}

/-- A reader of a store that follows the books sees the draft that was closed last. -/
theorem Follows.newReader (h : t.Follows l) :
    (l.latest = none ∧ t.store.newReader = .error .noSave)
      ∨ ∃ i w d, l.latest = some i ∧ t.writers[i]? = some w ∧ l.drafts[i]? = some d
        ∧ d.phase = .closed ∧ t.store.newReader = .ok ⟨t.store.session, w.generation⟩
        ∧ Generations.Shows (t.store.source ⟨t.store.session, w.generation⟩) d.written := by
  cases hlatest : l.latest with
  | none =>
    refine .inl ⟨rfl, ?_⟩
    rw [Generations.newReader, if_pos h.isOpen, Generations.current, (h.vacant hlatest).1]
    rfl
  | some i =>
    obtain ⟨w, d, hw, hd, hclosed, hholds⟩ := h.holds hlatest
    refine .inr ⟨i, w, d, rfl, hw, hd, hclosed, ?_, ?_⟩
    · rw [Generations.newReader, if_pos h.isOpen, hholds.current]
    · refine Generations.shows_source ?_ hholds.sorted hholds.under
      rw [Generations.serves, h.isOpen, beq_self_eq_true]
      rfl

/-- A writer that is closed removes the generation that was current before it. -/
theorem Follows.get?_step_of_commits (h : t.Follows l) {a : WriterStep} (ha : a.Commits l)
    {r : GenerationReader} {key : String} (hr : t.store.newReader = .ok r)
    (hkey : UnderStart (generationStart r.generation) key) :
    (t.step a).store.database.get? key = none := by
  obtain ⟨i, rfl, hsome⟩ := ha
  rcases h.writing_cases i with ⟨hnone, -⟩ | ⟨w, d, hw, hd, -, hopen, hfollows⟩
  · rw [hnone] at hsome
    cases hsome
  rcases h.newReader with ⟨-, hnew⟩ | ⟨j, v, e, -, hv, he, hclosed, hnew, -⟩
  · cases hr.symm.trans hnew
  obtain rfl := Except.ok.inj (hr.symm.trans hnew)
  have hij := h.ne_of_closed hw hopen he hclosed
  rw [step_close_of_open hw hopen (h.serves hfollows)]
  exact (h.holds_publish hw hopen hfollows).get?_of_ne hfollows.plain.no_colon
    (h.writer hv he).plain.no_colon (h.generation_ne hw hv hij).symm hkey

end Workshop

/-! ## Readers that stay -/

namespace Ledger

variable {l : Ledger} {i : Nat} {d : Draft}

theorem writing?_of_closed (hd : l.drafts[i]? = some d) (hclosed : d.phase = .closed) :
    l.writing? i = none := by
  rw [writing?, hd, Option.filter_some, hclosed]
  rfl

/-- A draft that is closed stays as it is, and is not closed again. -/
theorem step_of_closed (hd : l.drafts[i]? = some d) (hclosed : d.phase = .closed)
    (a : WriterStep) :
    (l.step a).drafts[i]? = some d ∧ ((l.step a).latest = some i → l.latest = some i) := by
  have hnone := writing?_of_closed hd hclosed
  have hset : ∀ {j e}, l.writing? j = some e → ∀ e', (l.drafts.set j e')[i]? = some d := by
    intro j e he e'
    have hji : j ≠ i := by
      rintro rfl
      cases hnone.symm.trans he
    exact (List.getElem?_set_ne hji).trans hd
  cases a with
  | create _ =>
    exact ⟨(List.getElem?_append_left (List.getElem?_eq_some_iff.mp hd).1).trans hd, id⟩
  | write j name data =>
    rw [step]
    cases he : l.writing? j with
    | none => exact ⟨hd, id⟩
    | some e => exact ⟨hset he _, id⟩
  | close j =>
    rw [step]
    cases he : l.writing? j with
    | none => exact ⟨hd, id⟩
    | some e =>
      refine ⟨hset he _, fun hj => ?_⟩
      obtain rfl := Option.some.inj hj
      cases hnone.symm.trans he
  | abort j =>
    rw [step]
    cases he : l.writing? j with
    | none => exact ⟨hd, id⟩
    | some e => exact ⟨hset he _, id⟩

theorem run_of_closed (hd : l.drafts[i]? = some d) (hclosed : d.phase = .closed)
    (steps : List WriterStep) :
    (l.run steps).drafts[i]? = some d ∧ ((l.run steps).latest = some i → l.latest = some i) := by
  induction steps generalizing l with
  | nil => exact ⟨hd, id⟩
  | cons a steps ih =>
    obtain ⟨hstep, hback⟩ := step_of_closed hd hclosed a
    obtain ⟨hrun, hlatest⟩ := ih hstep
    exact ⟨hrun, fun h => hback (hlatest h)⟩

/-- Once another writer has been closed, the first is never the latest again. -/
theorem latest_of_append (hd : l.drafts[i]? = some d) (hclosed : d.phase = .closed)
    (before after : List WriterStep) (h : (l.run (before ++ after)).latest = some i) :
    (l.run before).latest = some i := by
  rw [run, List.foldl_append] at h
  exact (run_of_closed (run_of_closed hd hclosed before).1 hclosed after).2 h

end Ledger

namespace Workshop

variable {t : Workshop} {l : Ledger}

theorem session_step (t : Workshop) (a : WriterStep) :
    (t.step a).store.session = t.store.session := by
  cases a with
  | create id =>
    rw [step, Generations.start]
    split
    · rename_i hstart
      split at hstart
      · exact congrArg (fun p => p.1.session) hstart.symm
      · cases hstart
    · rename_i hstart
      split at hstart
      · cases hstart
      · exact congrArg (fun p => p.1.session) hstart.symm
  | write i name data =>
    rw [step]
    cases t.writers[i]? <;> rfl
  | close i =>
    rw [step]
    cases t.writers[i]? with
    | none => rfl
    | some w =>
      dsimp only
      rw [Generations.finish]
      split
      · rfl
      · dsimp only
        split
        · exact Generations.publish_session ..
        · split <;> rfl
  | abort i =>
    rw [step]
    cases t.writers[i]? with
    | none => rfl
    | some w =>
      dsimp only
      rw [Generations.abort]
      split <;> rfl

theorem session_run (t : Workshop) (steps : List WriterStep) :
    (t.run steps).store.session = t.store.session := by
  induction steps generalizing t with
  | nil => rfl
  | cons a steps ih => exact (ih (t.step a)).trans (session_step t a)

/-- What a reader sees after more steps: the same as before if no other writer has been closed, and
nothing if one has. -/
theorem Follows.source_run (h : t.Follows l) {r : GenerationReader}
    (hr : t.store.newReader = .ok r) {steps : List WriterStep}
    (hids : (t.writers.map (·.generation) ++ WriterStep.ids steps).Nodup)
    (hplain : ∀ id ∈ WriterStep.ids steps, Text.Uuid.IsPlain id) :
    (t.run steps).store.source r
      = if (l.run steps).latest = l.latest then t.store.source r
        else Generations.vacantSource := by
  obtain ⟨hrun, hgens⟩ := follows_run h steps hids hplain
  obtain ⟨-, hnew⟩ | ⟨i, w, d, hi, hw, hd, hclosed, hnew, -⟩ := h.newReader
  · cases hr.symm.trans hnew
  obtain rfl := Except.ok.inj (hr.symm.trans hnew)
  have hserves : t.store.serves t.store.session = true := by
    rw [Generations.serves, h.isOpen, beq_self_eq_true]
    rfl
  have hserves' : (t.run steps).store.serves t.store.session = true := by
    rw [Generations.serves, hrun.isOpen, session_run, beq_self_eq_true]
    rfl
  -- The writer of the reader's generation is still there, and closed.
  have hd' := (Ledger.run_of_closed hd hclosed steps).1
  obtain ⟨w', hw', hfollows'⟩ := hrun.exists_writer hd'
  have hgen : w'.generation = w.generation := by
    have hget := congrArg (·[i]?) hgens
    rw [List.getElem?_append_left, List.getElem?_map, List.getElem?_map, hw', hw] at hget
    · exact Option.some.inj hget
    · rw [List.length_map]
      exact (List.getElem?_eq_some_iff.mp hw).1
  by_cases hlatest : (l.run steps).latest = l.latest
  · rw [if_pos hlatest]
    obtain ⟨v, e, hv, he, -, hholds⟩ := h.holds hi
    obtain ⟨v', e', hv', he', -, hholds'⟩ := hrun.holds (hlatest.trans hi)
    obtain rfl := Option.some.inj (hw.symm.trans hv)
    obtain rfl := Option.some.inj (hd.symm.trans he)
    obtain rfl := Option.some.inj (hw'.symm.trans hv')
    obtain rfl := Option.some.inj (hd'.symm.trans he')
    rw [hgen] at hholds'
    exact Generations.source_eq_of_database hserves hserves' (hholds.database_eq hholds')
  · rw [if_neg hlatest]
    refine Generations.source_eq_vacantSource hserves' hrun.sorted fun key hkey => ?_
    cases hj : (l.run steps).latest with
    | none => exact absurd hclosed ((hrun.vacant hj).2 d (List.mem_of_getElem? hd'))
    | some j =>
      have hij : i ≠ j := by
        rintro rfl
        exact hlatest (hj.trans hi.symm)
      obtain ⟨v, e, hv, he, -, hholds⟩ := hrun.holds hj
      dsimp only at hkey
      rw [← hgen] at hkey
      exact hholds.get?_of_ne (hrun.writer hv he).plain.no_colon hfollows'.plain.no_colon
        (hrun.generation_ne hw' hv hij) hkey

end Workshop

/-- Any number of writers on an open store that has no save yet, in any order of their steps, each with
an identifier of its own. A reader finds no save if and only if no writer has been closed. Else it
lists exactly the names that the writer closed last was given, in the order of their bytes, and reads
the last bytes given for each. A step that closes no writer leaves the database as it is, and after
one that does, no key of the generation that was current before it is left. -/
theorem run_readers_isolated {s : Generations} (hopen : s.isOpen = true)
    (hempty : s.database = .empty) {steps : List WriterStep}
    (hids : (WriterStep.ids steps).Nodup)
    (hplain : ∀ id ∈ WriterStep.ids steps, Text.Uuid.IsPlain id) :
    let t := Workshop.run ⟨s, []⟩ steps
    let l := Ledger.run .blank steps
    (t.store.newReader = .error .noSave ↔ ∀ d ∈ l.drafts, d.phase ≠ .closed)
      ∧ ((∃ d ∈ l.drafts, d.phase = .closed) → ∃ i d r, l.latest = some i
        ∧ l.drafts[i]? = some d ∧ d.phase = .closed ∧ t.store.newReader = .ok r
        ∧ Generations.Shows (t.store.source r) d.written)
      ∧ ∀ before a after, steps = before ++ a :: after →
        (¬a.Commits (Ledger.run .blank before) →
          (Workshop.run ⟨s, []⟩ (before ++ [a])).store.database
            = (Workshop.run ⟨s, []⟩ before).store.database)
        ∧ (a.Commits (Ledger.run .blank before) → ∀ r key,
          (Workshop.run ⟨s, []⟩ before).store.newReader = .ok r →
          UnderStart (generationStart r.generation) key →
          (Workshop.run ⟨s, []⟩ (before ++ [a])).store.database.get? key = none) := by
  have hstart := Workshop.follows_blank hopen hempty
  obtain ⟨hfollows, -⟩ := Workshop.follows_run hstart steps hids hplain
  refine ⟨?_, fun ⟨d, hd, hclosed⟩ => ?_, fun before a after hsplit => ?_⟩
  · rcases hfollows.newReader with ⟨hnone, hnew⟩ | ⟨i, w, d, -, -, hd, hclosed, hnew, -⟩
    · exact iff_of_true hnew (hfollows.vacant hnone).2
    · refine iff_of_false (fun hno => ?_) fun hnever => ?_
      · cases hnew.symm.trans hno
      · exact hnever d (List.mem_of_getElem? hd) hclosed
  · rcases hfollows.newReader with ⟨hnone, -⟩ | ⟨i, w, e, hlatest, -, he, hphase, hnew, hshows⟩
    · exact absurd hclosed ((hfollows.vacant hnone).2 d hd)
    · exact ⟨i, e, _, hlatest, he, hphase, hnew, hshows⟩
  · subst hsplit
    rw [WriterStep.ids_append] at hids hplain
    obtain ⟨hbefore, -⟩ := Workshop.follows_run hstart before (List.nodup_append.mp hids).1
      fun id hid => hplain id (List.mem_append_left _ hid)
    have hlast : Workshop.run ⟨s, []⟩ (before ++ [a]) = (Workshop.run ⟨s, []⟩ before).step a :=
      List.foldl_append
    rw [hlast]
    exact ⟨hbefore.database_step, fun hcommits r key => hbefore.get?_step_of_commits hcommits⟩

/-- Three writers: the second is closed while the first still writes, the first is closed after it, and
the third is aborted. -/
def threeWriters : List WriterStep :=
  [.create (Text.Uuid.ofNat 0), .create (Text.Uuid.ofNat 1), .write 0 "level.yaml" ⟨#[1]⟩,
    .write 1 "level.yaml" ⟨#[2]⟩, .write 1 "notes" ⟨#[2]⟩, .close 1,
    .write 0 "level.yaml" ⟨#[3]⟩, .create (Text.Uuid.ofNat 2), .close 0,
    .write 2 "notes" ⟨#[4]⟩, .abort 2]

/-- The entries of the first writer are read, and those of the others are not. -/
theorem run_readers_isolated_three :
    (WriterStep.ids threeWriters).Nodup
      ∧ (∀ id ∈ WriterStep.ids threeWriters, Text.Uuid.IsPlain id)
      ∧ ∃ r, (Workshop.run ⟨Generations.empty.reopen, []⟩ threeWriters).store.newReader = .ok r
        ∧ ((Workshop.run ⟨Generations.empty.reopen, []⟩ threeWriters).store.source r).read
          "level.yaml" = .ok ⟨#[3]⟩
        ∧ ((Workshop.run ⟨Generations.empty.reopen, []⟩ threeWriters).store.source r).read
          "notes" = .error (.absentEntry "notes") := by
  have hids : (WriterStep.ids threeWriters).Nodup := by decide +kernel
  have hplain : ∀ id ∈ WriterStep.ids threeWriters, Text.Uuid.IsPlain id := by decide +kernel
  obtain ⟨-, hclosed, -⟩ := run_readers_isolated (s := Generations.empty.reopen) rfl rfl hids hplain
  obtain ⟨i, d, r, hi, hd, -, hnew, hshows⟩ := hclosed
    ⟨⟨[("level.yaml", ⟨#[3]⟩), ("level.yaml", ⟨#[1]⟩)], .closed⟩, List.mem_cons_self, rfl⟩
  obtain rfl := Option.some.inj hi
  obtain rfl := Option.some.inj hd
  exact ⟨hids, hplain, r, hnew, hshows.read rfl, hshows.absent rfl⟩

end BlockWorld.Save
