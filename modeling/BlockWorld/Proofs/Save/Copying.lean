import Mathlib.Data.List.TakeWhile
import BlockWorld.Proofs.Archive
/-!
How far a copy gets. A copy goes through the names of its source and stops at the first entry that
cannot be read or is refused by the sink (`stop?`). Into a sink that is a map from names to bytes
(`Sink.IsMap`) it has then written the entries before that one and no others, and the number it
gives is how many these are (`copyNames_spec`).

How the proof goes. `stop?` looks at one name: the entry cannot be read, or the sink refuses it. A step of the
copy is then one of two (`copyNames_of_stop`, `copyNames_of_pass`), and the induction is on the names. The
sink changes on the way, so that `copyNames_spec` is about a sink in any state of its map; what it refuses
must not depend on that state, which `Sink.IsMap` asks for. The error of a copy that stops carries the one
that stopped it, with the name of the entry in front (`wraps_of_stop?`).
-/
namespace BlockWorld.Save

/-! ## Sinks that are maps -/

/-- A sink that is a map from names to bytes. A write is refused, which leaves the map as it is, or
puts the bytes under the name. What is refused does not depend on what has been written. -/
structure Sink.IsMap {σ : Type} (sink : Sink σ) (get : σ → String → Option ByteArray)
    (refusal : σ → String → ByteArray → Option ArchiveError) : Prop where
  refused : ∀ {s name data e}, refusal s name data = some e →
    (sink.write s name data).2 = .error e ∧ get (sink.write s name data).1 = get s
  taken : ∀ {s name data}, refusal s name data = none →
    (sink.write s name data).2 = .ok ()
      ∧ ∀ other, get (sink.write s name data).1 other
        = if other = name then some data else get s other
  steady : ∀ s name data, refusal (sink.write s name data).1 = refusal s

/-- What an archive in memory refuses. -/
def MemoryArchive.refusal (a : MemoryArchive) (name : String) (_ : ByteArray) :
    Option ArchiveError :=
  if name ∈ a.failWrite then some .injected else none

/-- An archive in memory is a map. -/
theorem MemoryArchive.isMap_sink :
    sink.IsMap (fun a name => a.entries.get? name) MemoryArchive.refusal where
  refused := by
    intro a name data e h
    simp only [MemoryArchive.refusal] at h
    split at h
    · rename_i hfail
      simp only [Option.some.injEq] at h
      simp [sink, MemoryArchive.write, hfail, h]
    · cases h
  taken := by
    intro a name data h
    simp only [MemoryArchive.refusal, ite_eq_right_iff, reduceCtorEq, imp_false] at h
    simp [sink, MemoryArchive.write, h, Entries.get?_insert]
  steady := by
    intro a name data
    funext other bytes
    simp only [sink, MemoryArchive.write]
    split <;> rfl

/-! ## Where a copy stops -/

/-- Why the entry of a name cannot be copied, if it cannot. -/
def stop? (source : Source) (refusal : String → ByteArray → Option ArchiveError) (name : String) :
    Option CopyError :=
  match source.read name with
  | .error e => some (.read name e)
  | .ok data => (refusal name data).map (.write name)

theorem stop?_eq_none {source : Source} {refusal : String → ByteArray → Option ArchiveError}
    {name : String} :
    stop? source refusal name = none
      ↔ ∃ data, source.read name = .ok data ∧ refusal name data = none := by
  unfold stop?
  cases source.read name <;> simp

theorem stop?_eq_some {source : Source} {refusal : String → ByteArray → Option ArchiveError}
    {name : String} {x : CopyError} :
    stop? source refusal name = some x
      ↔ (∃ e, source.read name = .error e ∧ x = .read name e)
        ∨ ∃ data e, source.read name = .ok data ∧ refusal name data = some e
          ∧ x = .write name e := by
  unfold stop?
  cases source.read name with
  | error e => simp [eq_comm]
  | ok data =>
    rw [Option.map_eq_some_iff]
    simp [eq_comm]

section Copy

variable {σ : Type} {sink : Sink σ} {get : σ → String → Option ByteArray}
  {refusal : σ → String → ByteArray → Option ArchiveError} (hmap : sink.IsMap get refusal)
  {source : Source}
include hmap

/-- A copy that stops has not changed the map in its last step. -/
theorem copyNames_of_stop {s : σ} {name : String} {x : CopyError}
    (h : stop? source (refusal s) name = some x) (done : Nat) (rest : List String) :
    (copyNames sink source done (name :: rest) s).copied = done
      ∧ (copyNames sink source done (name :: rest) s).error = some x
      ∧ get (copyNames sink source done (name :: rest) s).sink = get s := by
  rw [copyNames]
  rcases stop?_eq_some.mp h with ⟨e, hread, rfl⟩ | ⟨data, e, hread, hrefusal, rfl⟩
  · simp [hread]
  · obtain ⟨herror, hsame⟩ := hmap.refused hrefusal
    simp only [hread]
    generalize sink.write s name data = written at herror hsame
    obtain ⟨s', result⟩ := written
    simp only at herror hsame
    simp [herror, hsame]

/-- A copy that goes on has put one entry into the map. -/
theorem copyNames_of_pass {s : σ} {name : String} (h : stop? source (refusal s) name = none)
    (done : Nat) (rest : List String) :
    ∃ data s', source.read name = .ok data
      ∧ copyNames sink source done (name :: rest) s = copyNames sink source (done + 1) rest s'
      ∧ (∀ other, get s' other = if other = name then some data else get s other)
      ∧ refusal s' = refusal s := by
  obtain ⟨data, hread, hrefusal⟩ := stop?_eq_none.mp h
  obtain ⟨hok, hput⟩ := hmap.taken hrefusal
  have hsteady := hmap.steady s name data
  refine ⟨data, (sink.write s name data).1, hread, ?_, hput, hsteady⟩
  rw [copyNames]
  simp only [hread]
  generalize sink.write s name data = written at hok
  obtain ⟨s', result⟩ := written
  simp only at hok
  simp [hok]

/-- A copy gets as far as the first entry that stops it. The entries before that one are in the map
afterwards, and nothing else has changed. -/
theorem copyNames_spec (source : Source) (names : List String) (done : Nat) (s : σ) :
    let passed := names.takeWhile fun name => (stop? source (refusal s) name).isNone
    let result := copyNames sink source done names s
    result.copied = done + passed.length
      ∧ result.error = names.findSome? (stop? source (refusal s))
      ∧ ∀ other, get result.sink other
        = if other ∈ passed then (source.read other).toOption else get s other := by
  -- The refusals of later states are those of the first one, so that `stop?` stays the same.
  induction names generalizing done s with
  | nil => simp [copyNames]
  | cons name rest ih =>
    cases hstop : stop? source (refusal s) name with
    | some x =>
      obtain ⟨hcopied, herror, hsame⟩ := copyNames_of_stop hmap hstop done rest
      simp [hcopied, herror, hsame, hstop]
    | none =>
      obtain ⟨data, s', hread, hnext, hput, hsteady⟩ := copyNames_of_pass hmap hstop done rest
      obtain ⟨hcopied, herror, hget⟩ := ih (done + 1) s'
      rw [hsteady] at hcopied herror hget
      simp only [hnext, hcopied, herror, hget, hput, hstop, List.takeWhile_cons, Option.isNone_none,
        if_true, List.length_cons, List.findSome?_cons, List.mem_cons]
      refine ⟨by omega, trivial, fun other => ?_⟩
      by_cases hname : other = name
      · simp [hname, hread, Except.toOption]
      · simp [hname]

theorem copyNames_error_eq_none_iff (names : List String) (s : σ) :
    (copyNames sink source 0 names s).error = none
      ↔ ∀ name ∈ names, ∃ data, source.read name = .ok data ∧ refusal s name data = none := by
  rw [(copyNames_spec hmap source names 0 s).2.1]
  simp [List.findSome?_eq_none_iff, stop?_eq_none]

/-- A copy that nothing stops has taken over all entries. -/
theorem copyNames_of_error_none {names : List String} {s : σ}
    (h : (copyNames sink source 0 names s).error = none) :
    (copyNames sink source 0 names s).copied = names.length
      ∧ (∀ name ∈ names, ∃ data, source.read name = .ok data
        ∧ get (copyNames sink source 0 names s).sink name = some data)
      ∧ ∀ name, name ∉ names → get (copyNames sink source 0 names s).sink name = get s name := by
  obtain ⟨hcopied, herror, hget⟩ := copyNames_spec hmap source names 0 s
  rw [h, eq_comm, List.findSome?_eq_none_iff] at herror
  have hall : names.takeWhile (fun name => (stop? source (refusal s) name).isNone) = names := by
    rw [List.takeWhile_eq_self_iff]
    intro name hname
    simp [herror name hname]
  rw [hall] at hcopied hget
  refine ⟨by omega, fun name hname => ?_, fun name hname => by rw [hget, if_neg hname]⟩
  obtain ⟨data, hread, -⟩ := stop?_eq_none.mp (herror name hname)
  refine ⟨data, hread, ?_⟩
  simp [hget, hname, hread, Except.toOption]

/-- A copy that stops has taken over the entries before the one that stops it. -/
theorem copyNames_of_error_some {names : List String} {s : σ} {x : CopyError}
    (h : (copyNames sink source 0 names s).error = some x) :
    ∃ before name after, names = before ++ name :: after
      ∧ (copyNames sink source 0 names s).copied = before.length
      ∧ stop? source (refusal s) name = some x
      ∧ (∀ other ∈ before, ∃ data, source.read other = .ok data ∧ refusal s other data = none
        ∧ get (copyNames sink source 0 names s).sink other = some data)
      ∧ ∀ other, other ∉ before →
          get (copyNames sink source 0 names s).sink other = get s other := by
  obtain ⟨hcopied, herror, hget⟩ := copyNames_spec hmap source names 0 s
  rw [h, eq_comm] at herror
  obtain ⟨before, name, after, rfl, hstop, hpass⟩ := List.findSome?_eq_some_iff.mp herror
  have hbefore : (before ++ name :: after).takeWhile
      (fun name => (stop? source (refusal s) name).isNone) = before := by
    rw [List.takeWhile_append_of_pos fun n hn => by simp [hpass n hn]]
    simp [hstop]
  rw [hbefore] at hcopied hget
  refine ⟨before, name, after, rfl, by omega, hstop, fun other hother => ?_, fun other hother => ?_⟩
  · obtain ⟨data, hread, hrefusal⟩ := stop?_eq_none.mp (hpass other hother)
    refine ⟨data, hread, hrefusal, ?_⟩
    simp [hget, hother, hread, Except.toOption]
  · rw [hget, if_neg hother]

end Copy

/-! ## Errors of a copy -/

/-- An error that carries another one: callers find its reasons, and its wording at the end. -/
structure CopyError.Wraps (x : CopyError) (context : String) (e : ArchiveError) : Prop where
  cause : x.cause = e
  reasons : Fault.reasons x = Fault.reasons e
  message : Fault.message x = context ++ ": " ++ Fault.message e

/-- What stops a copy is wrapped with the name of the entry. -/
theorem wraps_of_stop? {source : Source} {refusal : String → ByteArray → Option ArchiveError}
    {name : String} {x : CopyError} (h : stop? source refusal name = some x) :
    (∃ e, source.read name = .error e ∧ x.Wraps ("read " ++ name) e)
      ∨ ∃ data e, source.read name = .ok data ∧ refusal name data = some e
        ∧ x.Wraps ("write " ++ name) e := by
  rcases stop?_eq_some.mp h with ⟨e, hread, rfl⟩ | ⟨data, e, hread, hrefusal, rfl⟩
  · exact .inl ⟨e, hread, rfl, rfl, rfl⟩
  · exact .inr ⟨data, e, hread, hrefusal, rfl, rfl, rfl⟩

/-- Copying into a map, from a source that lists no name twice, takes over a beginning of the list. If
it ends well, every entry of the source is in the map, as many as the copy says, and other names hold
what they held. If not, the copy gives the number of entries before the first one that cannot be read
or written; just these have been written, and the error wraps the one that stopped it. A list that
cannot be had stops it before the first entry. -/
theorem copy_takes_beginning {σ : Type} {sink : Sink σ} {get : σ → String → Option ByteArray}
    {refusal : σ → String → ByteArray → Option ArchiveError} (hmap : sink.IsMap get refusal)
    (source : Source) (hdistinct : ∀ names, source.names = .ok names → names.Nodup) (s : σ) :
    let result := copy sink source s
    (∀ e, source.names = .error e →
        result.sink = s ∧ result.copied = 0
          ∧ ∃ x, result.error = some x ∧ x.Wraps "list entries" e)
      ∧ ∀ names, source.names = .ok names →
        (result.error = none
          ↔ ∀ name ∈ names, ∃ data, source.read name = .ok data ∧ refusal s name data = none)
        ∧ (result.error = none →
          result.copied = names.length
            ∧ (∀ name ∈ names, ∃ data, source.read name = .ok data
              ∧ get result.sink name = some data)
            ∧ ∀ name, name ∉ names → get result.sink name = get s name)
        ∧ ∀ x, result.error = some x →
          ∃ before name after, names = before ++ name :: after ∧ result.copied = before.length
            ∧ ((∃ e, source.read name = .error e ∧ x.Wraps ("read " ++ name) e)
              ∨ ∃ data e, source.read name = .ok data ∧ refusal s name data = some e
                ∧ x.Wraps ("write " ++ name) e)
            ∧ (∀ other ∈ before, ∃ data, source.read other = .ok data
              ∧ refusal s other data = none ∧ get result.sink other = some data)
            ∧ (∀ other ∈ name :: after, get result.sink other = get s other)
            ∧ ∀ other, other ∉ names → get result.sink other = get s other := by
  intro result
  refine ⟨fun e hlist => ?_, fun names hlist => ?_⟩
  · have hresult : result = ⟨s, 0, some (.list e)⟩ := by
      simp only [result, copy, hlist]
    rw [hresult]
    exact ⟨rfl, rfl, _, rfl, rfl, rfl, rfl⟩
  have hresult : result = copyNames sink source 0 names s := by
    simp only [result, copy, hlist]
  rw [hresult]
  refine ⟨copyNames_error_eq_none_iff hmap names s, copyNames_of_error_none hmap, fun x hx => ?_⟩
  obtain ⟨before, name, after, hnames, hcopied, hstop, hwritten, hkept⟩ :=
    copyNames_of_error_some hmap hx
  refine ⟨before, name, after, hnames, hcopied, wraps_of_stop? hstop, hwritten,
    fun other hother => hkept other fun hmem => ?_, fun other hother => hkept other fun hmem => ?_⟩
  · -- The names from the one that stops the copy on do not stand before it.
    have hnodup := hdistinct names hlist
    rw [hnames, List.nodup_append] at hnodup
    exact hnodup.2.2 other hmem other hother rfl
  · apply hother
    rw [hnames]
    exact List.mem_append_left _ hmem

/-- The second of three entries cannot be read, and the third would be refused: the first one is
taken over, and the other names hold what they held. -/
theorem copy_takes_beginning_first :
    let source : Source := ⟨.ok ["a", "b", "c"],
      fun name => if name = "b" then .error .injected else .ok ⟨#[1]⟩⟩
    let target : MemoryArchive := ⟨⟨[("b", ⟨#[2]⟩)]⟩, false, [], ["c"]⟩
    let result := copy MemoryArchive.sink source target
    MemoryArchive.sink.IsMap (fun a name => a.entries.get? name) MemoryArchive.refusal
      ∧ (∀ names, source.names = .ok names → names.Nodup)
      ∧ result.copied = 1
      ∧ result.sink.entries.get? "a" = some ⟨#[1]⟩
      ∧ result.sink.entries.get? "b" = some ⟨#[2]⟩
      ∧ result.sink.entries.get? "c" = none := by
  intro source target result
  have hdistinct : ∀ names, source.names = .ok names → names.Nodup := by
    rintro names ⟨⟩
    decide
  have hspec := copy_takes_beginning MemoryArchive.isMap_sink source hdistinct target
  obtain ⟨before, name, after, hnames, hcopied, -, hwritten, hkept, -⟩ :=
    (hspec.2 ["a", "b", "c"] rfl).2.2 (.read "b" .injected) rfl
  have hlength : before.length = 1 := hcopied.symm
  obtain ⟨first, rfl⟩ := List.length_eq_one_iff.mp hlength
  simp only [List.cons_append, List.nil_append, List.cons.injEq] at hnames
  obtain ⟨rfl, rfl, rfl⟩ := hnames
  refine ⟨MemoryArchive.isMap_sink, hdistinct, rfl, ?_, hkept "b" (by simp), hkept "c" (by simp)⟩
  obtain ⟨data, hread, -, hget⟩ := hwritten "a" (by simp)
  cases hread
  exact hget

end BlockWorld.Save
