import BlockWorld.Data.Yaml.Field
import BlockWorld.Proofs.Data.Timestamp
/-!
What every reading keeps.

A text may say the same thing in many ways: its pairs may stand in any order, come from other mappings under
the key `<<`, or be named by aliases. For what is true of every record that can be read none of this matters.
If the reading of a pair keeps a property of the record, then so does the reading of a mapping
(`gives_putMapping`), of a document (`gives_record`) and of a text (`decode_keeps`).

How the proof goes. `Gives r P` says that whatever the step `r` starts from, a value that it gives satisfies
`P`; nothing is said of steps that stop. It goes through `>>=` (`Gives.bind`) and through folds
(`gives_foldlM`), and the proofs follow the definitions of the readers with these two. Mappings that take pairs
from others are an induction on the fuel, as there.

The property at hand is that times are proper: a field that holds a time has one that was read from a text
(`gives_timestamp`), and all of those are proper.
-/
namespace BlockWorld.Data.Yaml

variable {α β : Type}

/-! ## Steps -/

/-- All values that a step can give have a property. -/
def Gives (r : Reading α) (P : α → Prop) : Prop := ∀ p a p', r p = .ok (a, p') → P a

section Gives

variable {P : α → Prop} {Q : β → Prop}

theorem gives_any (r : Reading α) : Gives r fun _ => True := fun _ _ _ _ => trivial

theorem gives_pure {a : α} (h : P a) : Gives (pure a) P := by
  intro p b p' hb
  cases hb
  exact h

theorem gives_throw (e : Stop) : Gives (throw e) P := fun _ _ _ h => by cases h

theorem Gives.bind {r : Reading α} {f : α → Reading β} (hr : Gives r P) (hf : ∀ a, P a → Gives (f a) Q) :
    Gives (r >>= f) Q := by
  intro p b p' hb
  change (r p >>= fun x => f x.1 x.2) = _ at hb
  cases hstep : r p with
  | error e =>
    rw [hstep] at hb
    cases hb
  | ok x =>
    rw [hstep] at hb
    exact hf x.1 (hr p x.1 x.2 hstep) x.2 b p' hb

/-- A step whose value does not count. -/
theorem Gives.after {r : Reading α} {f : α → Reading β} (hf : ∀ a, Gives (f a) Q) : Gives (r >>= f) Q :=
  (gives_any r).bind fun a _ => hf a

theorem gives_foldlM {f : α → β → Reading α} {xs : List β} {init : α} (hinit : P init)
    (hstep : ∀ acc x, P acc → Gives (f acc x) P) : Gives (xs.foldlM f init) P := by
  induction xs generalizing init with
  | nil => exact gives_pure hinit
  | cons x xs ih =>
    rw [List.foldlM_cons]
    exact (hstep init x hinit).bind fun acc hacc => ih hacc

end Gives

theorem gives_passOver {P : Option α → Prop} (h : P none) : Gives passOver P :=
  .after fun _ => gives_pure h

/-! ## Mappings -/

theorem gives_eachSource {σ : Type} {Q : σ → Prop} {step : Yaml → List (Node × Node) → σ → Reading σ}
    (hstep : ∀ y pairs s, Q s → Gives (step y pairs s) Q) (y : Yaml) (source : Node) {s : σ} (hs : Q s) :
    Gives (eachSource y source step s) Q := by
  unfold eachSource
  split
  · refine gives_foldlM hs fun s item hs => .after fun y => ?_
    split
    · exact hstep y _ s hs
    · exact gives_throw .refused
  · refine .after fun y => ?_
    split
    · exact hstep y _ s hs
    · exact gives_throw .refused

section Mappings

variable {P : α → Prop} {put : Put α} (hput : ∀ e acc, P acc → Gives (put e acc) P)
include hput

theorem gives_putPairs (y : Yaml) (merged : Bool) (pairs : List (Node × Node)) (met : Met) {old : α}
    (hold : P old) : Gives (putPairs put y merged pairs met old) fun found => P found.1 := by
  refine gives_foldlM hold fun ⟨acc, met⟩ ⟨k, value⟩ hacc => ?_
  dsimp only at hacc ⊢
  split
  · exact gives_pure hacc
  · refine .after fun name => ?_
    cases name with
    | none => exact gives_pure hacc
    | some name =>
      dsimp only
      split
      · exact gives_pure hacc
      · exact (hput _ acc hacc).bind fun acc hacc => gives_pure hacc

/-- Reading a mapping keeps what reading a pair keeps. -/
theorem gives_putMapping (fuel : Nat) (met : Option Met) (y : Yaml) (pairs : List (Node × Node)) {old : α}
    (hold : P old) : Gives (putMapping put fuel met y pairs old) fun found => P found.1 := by
  induction fuel generalizing met y pairs old with
  | zero => exact gives_throw .refused
  | succ fuel ih =>
    rw [putMapping]
    split
    · exact .after fun _ => gives_pure hold
    · refine (gives_putPairs hput y met.isSome pairs (met.getD []) hold).bind fun ⟨found, own⟩ hfound => ?_
      dsimp only
      split
      · exact gives_pure hfound
      · have hsources : ∀ (source : Node) (known : Met), Gives (eachSource y source
            (fun y pairs (s : α × Met) => putMapping put fuel (some s.2) y pairs s.1) (found, known))
            fun found => P found.1 := fun source known =>
          gives_eachSource (fun y pairs s hs => ih (some s.2) y pairs hs) y source hfound
        split
        · exact .after fun known => hsources _ known
        · exact .after fun known => hsources _ known

theorem gives_ofMapping {empty : α} {null : Option α} (hempty : P empty) (hnull : ∀ v ∈ null, P v) (y : Yaml) :
    Gives (ofMapping put empty null y) fun v => ∀ a ∈ v, P a := by
  refine .after fun y => ?_
  split
  · refine (gives_putMapping hput _ none y _ hempty).bind fun found hfound => gives_pure ?_
    rintro a ⟨⟩
    exact hfound
  · refine .after fun s => ?_
    split
    · exact gives_pure hnull
    · exact gives_passOver nofun
  · exact gives_passOver nofun

end Mappings

/-! ## Records -/

/-- A field whose reading keeps a property of the record. -/
def Field.Keeps (f : Field α) (P : α → Prop) : Prop := ∀ r y, P r → Gives (f.read r y) P

theorem keeps_field {P : α → Prop} {Q : β → Prop} {name : String} {read : Reader β} {take : α → β}
    {put : α → β → α} (htake : ∀ r, P r → Q (take r)) (hput : ∀ r v, P r → Q v → P (put r v))
    (hread : ∀ old y, Q old → Gives (read old y) fun v => ∀ a ∈ v, Q a) :
    (field name read take put).Keeps P := by
  intro r y hr
  refine (hread (take r) y (htake r hr)).bind fun v hv => ?_
  cases v with
  | none => exact gives_pure hr
  | some v => exact gives_pure (hput r v hr (hv v rfl))

/-- A field that a property is not about. -/
theorem keeps_field_of_indifferent {P : α → Prop} {name : String} {read : Reader β} {take : α → β}
    {put : α → β → α} (hput : ∀ r v, P r → P (put r v)) : (field name read take put).Keeps P :=
  keeps_field (Q := fun _ => True) (fun _ _ => trivial) (fun r v hr _ => hput r v hr)
    fun _ _ _ _ _ _ _ _ _ => trivial

section Records

variable {P : α → Prop} {fields : List (Field α)} (hfields : ∀ f ∈ fields, f.Keeps P)
include hfields

theorem gives_putField (e : Entry) (r : α) (hr : P r) : Gives (putField fields e r) P := by
  rw [putField]
  split
  · exact gives_pure hr
  · rename_i f hf
    have hkeeps := hfields f (List.mem_of_find?_eq_some hf)
    split
    · exact .after fun _ => gives_pure hr
    · dsimp only
      split
      · exact .after fun _ => gives_throw _
      · exact hkeeps r e.value hr

theorem gives_record {old : α} (hold : P old) (y : Yaml) :
    Gives (record fields old y) fun v => ∀ a ∈ v, P a :=
  gives_ofMapping (gives_putField hfields) hold (fun _ h => by cases h) y

/-- Every record that is read from a text has what its fields keep. -/
theorem decode_keeps {old r : α} (hold : P old) {data : ByteArray} (h : decode (record fields) old data = .ok r) :
    P r := by
  rw [decode] at h
  unfold decodeWith at h
  split at h
  · cases h
  · cases h
    exact hold
  · rename_i document _
    split at h
    · rename_i v progress hread
      split at h
      · cases h
      · cases h
        have hgives := gives_record hfields hold ⟨document.root, document, []⟩ _ v progress hread
        cases v with
        | none => exact hold
        | some r => exact hgives r rfl
    · cases h
    · cases h

end Records

/-! ## Times -/

theorem numeric_ne_time (s : String) (t : Timestamp) : numeric s ≠ .time t := by
  intro h
  unfold numeric at h
  dsimp only at h
  split at h
  · cases h
  · split at h
    · cases h
    · split at h <;> cases h

theorem proper_of_resolve {times : Bool} {s : String} {t : Timestamp} (h : resolve times s = .time t) :
    t.Proper := by
  unfold resolve at h
  split at h
  · cases h
  split at h
  · cases h
  split at h
  · cases h
  split at h
  · cases h
  split at h
  · split at h
    · split at h
      · rename_i t' ht
        obtain rfl := Meaning.time.inj h
        cases times with
        | false => cases ht
        | true => exact .of_parseLenient? ht
      · exact absurd h (numeric_ne_time s t)
    · split at h
      · split at h <;> cases h
      · cases h
  · cases h

theorem proper_of_scalarValue {tag : Option String} {text : String} {plain : Bool} {s : Scalar} {t : Timestamp}
    (h : scalarValue tag text plain = .ok s) (ht : s.meaning = .time t) : t.Proper := by
  cases tag with
  | none =>
    cases h
    dsimp only at ht
    split at ht
    · exact proper_of_resolve ht
    · cases ht
  | some tag =>
    change tagged tag text = .ok s at h
    unfold tagged at h
    split at h
    case h_5 =>
      split at h
      · rename_i t' ht'
        cases h
        obtain rfl := Meaning.time.inj ht
        exact proper_of_resolve ht'
      · cases h
    -- No other tag gives a time.
    case h_1 | h_2 | h_3 | h_6 =>
      split at h <;> cases h
      cases ht
    case h_4 =>
      split at h
      · cases h
        cases ht
      · split at h <;> cases h
        cases ht
      · cases h
    case h_7 =>
      cases h
      cases ht

theorem gives_scalarOf (tag : Option String) (text : String) (plain : Bool) :
    Gives (scalarOf tag text plain) fun s => ∀ t, s.meaning = .time t → t.Proper := by
  rw [scalarOf]
  split
  · rename_i s hs
    exact gives_pure fun t => proper_of_scalarValue hs
  · exact gives_throw .refused

theorem gives_timestamp (old : Timestamp) (y : Yaml) (hold : old.Proper) :
    Gives (timestamp old y) fun v => ∀ t ∈ v, t.Proper := by
  refine .after fun y => ?_
  split
  · refine (gives_putMapping (gives_putField nofun) _ none y _ hold).bind fun found hfound => gives_pure ?_
    rintro t ⟨⟩
    exact hfound
  · refine (gives_scalarOf _ _ _).bind fun s hs => ?_
    split
    · exact gives_pure nofun
    · rename_i t ht
      refine gives_pure ?_
      rintro t ⟨⟩
      exact hs t ht
    · split
      · rename_i t ht
        refine gives_pure ?_
        rintro t ⟨⟩
        exact .of_parse? ht
      · exact gives_throw .refused
  · exact gives_passOver nofun

end BlockWorld.Data.Yaml
