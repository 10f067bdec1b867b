import BlockWorld.Proofs.Data.Yaml.Meaning
/-!
# Records with one line for each field

The text of a record is read as the record if each line is read into its field, and refused if one is not:

    decode (record fields) old s.toUTF8 = .ok (items.foldl (fun r i => i.set r) old)       `Item.decode_lines`
    decode (record fields) old s.toUTF8 = .error .mismatch                                 `Item.decode_lines_of_bad`

An `Item` is a line and what it does to the record. Nothing here knows which record it is.

## How the proof goes

From tokens to nodes: a line gives a key and a value, both scalars (`blockPairs_line`), and all lines give one
mapping (`blockPairs_lines`, by induction on the lines), which is the document (`document_lines`,
`ofTokens_lines`).

From nodes to the record: the readers of values carry a state, in which they count what they have met, so that
aliases cannot make a text grow without bounds, and note what was out of place. `Reads r v` says that a reader
gives `v` without having met an alias or anything out of place, and `Refuses r` that it stops with a refusal.
Both go through `>>=` (`Reads.bind`, `Refuses.bind`), so that each kind of field has a lemma of one step
(`reads_string`, `reads_int64`, `reads_timestamp`, `refuses_timestamp`). A field takes its value
(`Item.good_of_reads`) or stops (`Item.bad_of_refuses`).

The pairs of a mapping are put into the record one after the other, with the names that were met kept beside
it. The induction of `reads_putPairs` has these names in its statement: they are those of the lines so far,
which is why the next name is new. `refuses_putPairs` runs the same induction up to the line that stops it.
Keys that come twice or that merge other mappings do not occur (`uniqueKeys_pairs`, `mergeSource?_pairs`).
-/
namespace BlockWorld.Data.Yaml

/-! ## The document of the lines -/

/-- The pair of nodes that a line stands for. -/
def Line.pair (x : Line) : Node × Node :=
  (.scalar none (String.ofList x.name) true, .scalar none (String.ofList x.text) x.plain)

theorem Line.length_le_tokens (lines : List Line) : lines.length ≤ (lines.flatMap Line.tokens).length := by
  induction lines with
  | nil => exact Nat.le_refl 0
  | cons x lines ih =>
    rw [List.flatMap_cons, List.length_append, List.length_cons, Line.tokens, List.length_cons]
    omega

/-- What is given with a state leaves the state. -/
theorem pure_state {σ ε α : Type} (a : α) (s : σ) : (StateT.pure a : StateT σ (Except ε) α) s = .ok (a, s) := rfl

namespace Build

theorem node_scalar (fuel : Nat) (block indentless : Bool) (text : List Char) (plain : Bool) (ts : List Token)
    (b : Builder) :
    node (fuel + 2) block indentless { b with tokens := .scalar text plain :: ts }
      = .ok (.scalar none (String.ofList text) plain, { b with tokens := ts }) := by
  rw [node]
  simp [peek, properties, content, skip, bind, StateT.bind, Except.bind, get, getThe, MonadStateOf.get,
    StateT.get, modify, modifyGet, MonadStateOf.modifyGet, StateT.modifyGet, pure, pure_state, Except.pure]

/-- One line of a block mapping. -/
theorem blockPairs_line (fuel : Nat) (x : Line) (ts : List Token) (b : Builder) :
    blockPairs (fuel + 3) { b with tokens := x.tokens ++ ts }
      = (blockPairs (fuel + 2) { b with tokens := ts }).map fun (pairs, b) => (x.pair :: pairs, b) := by
  have hnode := fun text plain ts => node_scalar fuel true true text plain ts b
  have hends : ∀ text plain, endsBlockPart (.scalar text plain) = false := fun text plain => by simp [endsBlockPart]
  rw [blockPairs, Line.tokens]
  simp only [List.cons_append, List.nil_append, peek, skip, hends, Bool.false_eq_true, if_false, bind, StateT.bind, Except.bind, get,
    getThe, MonadStateOf.get, StateT.get, modify, modifyGet, MonadStateOf.modifyGet, StateT.modifyGet, pure,
    pure_state, Except.pure, List.head?_cons, Option.getD_some, List.drop_succ_cons, List.drop_zero, hnode]
  cases blockPairs (fuel + 2) { b with tokens := ts } with
  | error e => rfl
  | ok r => rfl

/-- The lines of a block mapping up to its end. -/
theorem blockPairs_lines (lines : List Line) {fuel : Nat} (hfuel : lines.length + 3 ≤ fuel) (ts : List Token)
    (b : Builder) :
    blockPairs fuel { b with tokens := lines.flatMap Line.tokens ++ .blockEnd :: ts }
      = .ok (lines.map Line.pair, { b with tokens := ts }) := by
  induction lines generalizing fuel with
  | nil =>
    obtain ⟨fuel, rfl⟩ : ∃ k, fuel = k + 1 := ⟨fuel - 1, by omega⟩
    rw [blockPairs]
    rfl
  | cons x lines ih =>
    obtain ⟨fuel, rfl⟩ : ∃ k, fuel = k + 3 := ⟨fuel - 3, by omega⟩
    rw [List.flatMap_cons, List.append_assoc, blockPairs_line, ih (by rw [List.length_cons] at hfuel; omega)]
    rfl

theorem node_mapping (lines : List Line) {fuel : Nat} (hfuel : lines.length + 3 ≤ fuel) (indentless : Bool)
    (ts : List Token) (b : Builder) :
    node (fuel + 2) true indentless
        { b with tokens := .blockMappingStart :: (lines.flatMap Line.tokens ++ .blockEnd :: ts) }
      = .ok (.mapping none (lines.map Line.pair), { b with tokens := ts }) := by
  have hpairs := blockPairs_lines lines hfuel ts b
  rw [node]
  simp only [peek, properties, content, skip, bind, StateT.bind, Except.bind, get, getThe, MonadStateOf.get,
    StateT.get, modify, modifyGet, MonadStateOf.modifyGet, StateT.modifyGet, pure, pure_state, Except.pure,
    List.head?_cons, Option.getD_some, List.drop_succ_cons, List.drop_zero, Option.mapM_none, Functor.map,
    StateT.map, hpairs, if_true]

theorem document_lines (lines : List Line) {fuel : Nat} (hfuel : lines.length + 5 ≤ fuel) (b : Builder) :
    ∃ b', document fuel
        { b with tokens := .blockMappingStart :: (lines.flatMap Line.tokens ++ [.blockEnd, .textEnd]) }
      = .ok (some (.mapping none (lines.map Line.pair)), b') ∧ b'.anchored = b.anchored := by
  obtain ⟨fuel, rfl⟩ : ∃ k, fuel = k + 2 := ⟨fuel - 2, by omega⟩
  have hnode := node_mapping lines (show lines.length + 3 ≤ fuel by omega) false [.textEnd] { b with handles := builtinHandles }
  refine ⟨{ b with tokens := [.textEnd], handles := builtinHandles }, ?_, rfl⟩
  rw [document, directives]
  simp only [peek, bind, StateT.bind, Except.bind, get, getThe, MonadStateOf.get,
    StateT.get, modify, modifyGet, MonadStateOf.modifyGet, StateT.modifyGet, pure, pure_state, Except.pure,
    List.head?_cons, Option.getD_some, List.nil_append, Bool.false_and, Bool.false_eq_true, if_false, hnode]
  rfl

end Build

/-- The document of the lines of a mapping. -/
theorem ofTokens_lines (lines : List Line) :
    ∃ steps, Document.ofTokens (.blockMappingStart :: (lines.flatMap Line.tokens ++ [.blockEnd, .textEnd]))
      = .ok (some ⟨.mapping none (lines.map Line.pair), [], steps⟩) := by
  obtain ⟨ts, hts⟩ : ∃ ts, ts = Token.blockMappingStart :: (lines.flatMap Line.tokens ++ [.blockEnd, .textEnd]) :=
    ⟨_, rfl⟩
  have hlength : lines.length < ts.length := by
    have hle := Line.length_le_tokens lines
    rw [hts, List.length_cons, List.length_append]
    omega
  obtain ⟨b, hdocument, hanchored⟩ := Build.document_lines lines
    (show lines.length + 5 ≤ 4 * ts.length + 4 by omega) ⟨ts, [], [], [], 0⟩
  rw [← hts] at hdocument ⊢
  refine ⟨(b.aliases + 1) * (ts.length + 1), ?_⟩
  rw [Document.ofTokens, StateT.run, hdocument]
  simp [bind, Except.bind, pure, Except.pure, hanchored]

/-! ## Reading without aliases -/

/-- A reading that meets no alias and nothing out of place, and gives a value. -/
def Reads {α : Type} (r : Reading α) (a : α) : Prop :=
  ∀ n, ∃ n', r ⟨n, 0, false⟩ = .ok (a, ⟨n', 0, false⟩)

namespace Reads

variable {α β : Type}

theorem pure (a : α) : Reads (Pure.pure a) a := fun n => ⟨n, rfl⟩

theorem bind {r : Reading α} {a : α} {f : α → Reading β} {b : β} (hr : Reads r a) (hf : Reads (f a) b) :
    Reads (r >>= f) b := by
  intro n
  obtain ⟨n', hn'⟩ := hr n
  obtain ⟨n'', hn''⟩ := hf n'
  refine ⟨n'', ?_⟩
  change (r ⟨n, 0, false⟩ >>= fun p => f p.1 p.2) = _
  rw [hn']
  exact hn''

end Reads

/-- A reading that meets no alias and stops at something that it cannot take. -/
def Refuses {α : Type} (r : Reading α) : Prop := ∀ n, r ⟨n, 0, false⟩ = .error .refused

theorem Refuses.bind {α β : Type} {r : Reading α} (hr : Refuses r) (f : α → Reading β) : Refuses (r >>= f) := by
  intro n
  change (r ⟨n, 0, false⟩ >>= fun p => f p.1 p.2) = _
  rw [hr n]
  rfl

theorem Reads.refuses {α β : Type} {r : Reading α} {a : α} {f : α → Reading β} (hr : Reads r a)
    (hf : Refuses (f a)) : Refuses (r >>= f) := by
  intro n
  obtain ⟨n', hn'⟩ := hr n
  change (r ⟨n, 0, false⟩ >>= fun p => f p.1 p.2) = _
  rw [hn']
  exact hf n'

theorem reads_count {y : Yaml} (htrail : y.trail = []) : Reads y.count () := by
  intro n
  refine ⟨n + 1, ?_⟩
  rw [count, htrail]
  rfl

theorem reads_enter {y : Yaml} (htrail : y.trail = [])
    (hnode : ∀ number name target, y.node ≠ .alias number name target) : Reads y.enter y := by
  refine (reads_count htrail).bind ?_
  split
  · rename_i number name target hy
    exact absurd hy (hnode number name target)
  · exact Reads.pure y

theorem reads_scalarOf {text : String} {plain : Bool} {m : Meaning}
    (hmeaning : (if plain then resolve true text else .text text) = m) :
    Reads (scalarOf none text plain) ⟨text, m⟩ := by
  subst hmeaning
  exact Reads.pure _

theorem reads_scalarOf_plain {text : String} {m : Meaning} (hmeaning : resolve true text = m) :
    Reads (scalarOf none text true) ⟨text, m⟩ :=
  reads_scalarOf (by rwa [if_pos rfl])

section Scalars

variable {y : Yaml} (htrail : y.trail = []) {text : String} {plain : Bool} (hnode : y.node = .scalar none text plain)
include htrail hnode

theorem reads_enter_scalar : Reads y.enter y :=
  reads_enter htrail fun number name target he => by rw [hnode] at he; cases he

/-- A scalar that stands for something is read by what it stands for. -/
theorem reads_ofScalar {α : Type} {want : Scalar → Reading (Option α)} {m : Meaning} {v : Option α} (old : α)
    (hmeaning : (if plain then resolve true text else .text text) = m) (hnull : m ≠ .null)
    (hwant : Reads (want ⟨text, m⟩) v) : Reads (ofScalar want old y) v := by
  refine (reads_enter_scalar htrail hnode).bind ?_
  rw [hnode]
  refine (reads_scalarOf hmeaning).bind ?_
  cases m with
  | null => exact absurd rfl hnull
  | _ => exact hwant

theorem reads_string (old : String) (hmeans : plain = true → meansText text = true) :
    Reads (string old y) (some text) := by
  refine reads_ofScalar htrail hnode old rfl ?_ (Reads.pure _)
  intro hnull
  cases plain with
  | false => cases hnull
  | true =>
    have hmeans := hmeans rfl
    rw [meansText, show resolve true text = .null from hnull] at hmeans
    cases hmeans

end Scalars

theorem reads_int64 {y : Yaml} (htrail : y.trail = []) {n : Int64}
    (hnode : y.node = .scalar none (Text.integer n) true) (old : Int64) : Reads (int64 old y) (some n) := by
  refine reads_ofScalar htrail hnode old (resolve_integer n) nofun ?_
  have hge : Int64.minValue.toInt ≤ n.toInt := n.le_toInt
  have hle : n.toInt ≤ Int64.maxValue.toInt := Int64.toInt_le n
  simp only [wholeNumber?, Option.bind_eq_bind, Option.bind_some]
  rw [if_pos ⟨hge, hle⟩, Int64.ofInt_toInt]
  exact Reads.pure _

theorem reads_timestamp {y : Yaml} (htrail : y.trail = []) {t : Timestamp} (h : t.Proper) (hnear : t.Near)
    (hnode : y.node = .scalar none t.text true) (old : Timestamp) : Reads (timestamp old y) (some t) := by
  refine (reads_enter_scalar htrail hnode).bind ?_
  rw [hnode]
  have hmeaning := resolve_text h hnear
  generalize t.text = text at hmeaning
  exact (reads_scalarOf_plain hmeaning).bind (Reads.pure _)

/-- A time field stops at a text that is no time. -/
theorem refuses_timestamp {y : Yaml} (htrail : y.trail = []) {text : String}
    (hnode : y.node = .scalar none text true) (hmeans : meansText text = true)
    (hparse : Timestamp.parse? text = none) (old : Timestamp) : Refuses (timestamp old y) := by
  refine (reads_enter_scalar htrail hnode).refuses ?_
  rw [hnode]
  obtain ⟨m, hm⟩ : ∃ m, resolve true text = m := ⟨_, rfl⟩
  rw [meansText, hm] at hmeans
  refine (reads_scalarOf_plain hm).refuses ?_
  cases m with
  | text s =>
    dsimp only
    rw [hparse]
    exact fun _ => rfl
  | _ => cases hmeans

theorem decodeWith_of_reads {α : Type} (read : Yaml → Reading (Option α)) {data : ByteArray} {d : Document}
    (hdata : Document.read data = .ok (some d)) {v : Option α} (hread : Reads (read ⟨d.root, d, []⟩) v) :
    decodeWith read data = .ok v := by
  obtain ⟨n, hn⟩ := hread 1
  unfold decodeWith
  rw [hdata]
  simp only [StateT.run, Progress.start, hn, Bool.false_eq_true, if_false]

theorem decodeWith_of_refuses {α : Type} (read : Yaml → Reading (Option α)) {data : ByteArray} {d : Document}
    (hdata : Document.read data = .ok (some d)) (hread : Refuses (read ⟨d.root, d, []⟩)) :
    decodeWith read data = .error .mismatch := by
  unfold decodeWith
  rw [hdata]
  simp only [StateT.run, Progress.start, hread 1]

/-! ## Fields -/

/-- A line of a record and what it sets. -/
structure Item (α : Type) where
  line : Line
  set : α → α

namespace Item

variable {α : Type}

/-- The name of the field. -/
def name (i : Item α) : String := String.ofList i.line.name

/-- The line stands for a name and a value. -/
structure Stands (i : Item α) : Prop where
  line : i.line.Good
  name : resolve true i.name ≠ .null

/-- The value is read into the field. -/
structure Good (fields : List (Field α)) (i : Item α) : Prop extends Stands i where
  read : ∀ y : Yaml, y.trail = [] → y.node = i.line.pair.2 → ∀ r,
    Reads (putField fields ⟨i.name, y, false, false, false⟩ r) (i.set r)

/-- The value is refused by the field. -/
structure Bad (fields : List (Field α)) (i : Item α) : Prop extends Stands i where
  read : ∀ y : Yaml, y.trail = [] → y.node = i.line.pair.2 → ∀ r,
    Refuses (putField fields ⟨i.name, y, false, false, false⟩ r)

/-- A field that is found reads the value. -/
theorem putField_eq {fields : List (Field α)} {name : String} {f : Field α}
    (hfind : fields.find? (·.name == name) = some f) (hinner : f.inner = false) (y : Yaml) (r : α) :
    putField fields ⟨name, y, false, false, false⟩ r = f.read r y := by
  unfold putField
  dsimp only
  rw [hfind]
  dsimp only
  rw [if_neg Bool.false_ne_true, hinner, Bool.false_and, if_neg Bool.false_ne_true]

section Fields

variable {fields : List (Field α)} {name : String} (hname : IsName name.toList) (hnull : resolve true name ≠ .null)
  {written : List Char} {text : String} {plain : Bool} (hvalue : ReadsAs written text.toList plain)
  (hascii : ∀ c ∈ written, IsAscii c)
include hname hnull hvalue hascii

theorem stands (set : α → α) : Stands ⟨⟨name.toList, written, text.toList, plain⟩, set⟩ :=
  ⟨⟨hname, hvalue, hascii⟩, by rwa [Item.name, String.ofList_toList]⟩

variable {β : Type} {read : Reader β} {take : α → β} {put : α → β → α}
  (hfind : fields.find? (·.name == name) = some (field name read take put))
include hfind

/-- A field is set by a value that its reader takes. -/
theorem good_of_reads {v : β}
    (hread : ∀ y : Yaml, y.trail = [] → y.node = .scalar none text plain → ∀ old, Reads (read old y) (some v)) :
    Good fields ⟨⟨name.toList, written, text.toList, plain⟩, fun r => put r v⟩ where
  toStands := stands hname hnull hvalue hascii _
  read y htrail hnode r := by
    have hscalar : y.node = .scalar none text plain := by simpa [Line.pair] using hnode
    rw [Item.name, String.ofList_toList, putField_eq hfind rfl]
    exact (hread y htrail hscalar (take r)).bind (Reads.pure _)

/-- A field stops at a value that its reader does not take. -/
theorem bad_of_refuses (set : α → α)
    (hread : ∀ y : Yaml, y.trail = [] → y.node = .scalar none text plain → ∀ old, Refuses (read old y)) :
    Bad fields ⟨⟨name.toList, written, text.toList, plain⟩, set⟩ where
  toStands := stands hname hnull hvalue hascii _
  read y htrail hnode r := by
    have hscalar : y.node = .scalar none text plain := by simpa [Line.pair] using hnode
    rw [Item.name, String.ofList_toList, putField_eq hfind rfl]
    exact (hread y htrail hscalar (take r)).bind _

end Fields

theorem isMerge_pair {x : Line} (h : IsName x.name) : x.pair.1.isMerge = false := by
  have hne : String.ofList x.name ≠ "<<" := by
    intro he
    have hchars : x.name = ['<', '<'] := by
      have := congrArg String.toList he
      rwa [String.toList_ofList] at this
    have hc := h.chars '<' (by rw [hchars]; exact List.mem_cons_self)
    cases hc
  rw [Line.pair, Node.isMerge.eq_def]
  split
  · rename_i heq
    exact absurd (by injection heq) hne
  · rename_i heq
    cases heq
  · rfl

theorem reads_keyName? {i : Item α} (hname : resolve true i.name ≠ .null) {y : Yaml} (htrail : y.trail = [])
    (hnode : y.node = .scalar none i.name true) : Reads y.keyName? (some i.name) := by
  obtain ⟨m, hm⟩ : ∃ m, resolve true i.name = m := ⟨_, rfl⟩
  rw [hm] at hname
  refine (reads_enter_scalar htrail hnode).bind ?_
  rw [hnode]
  refine (reads_scalarOf_plain hm).bind ?_
  cases m with
  | null => exact absurd rfl hname
  | _ => exact Reads.pure _

theorem holds_text {met : List String} {name : String} (h : name ∉ met) :
    Met.holds (met.map .text) (.text name) = false := by
  rw [Met.holds, List.any_eq_false]
  intro m hm
  obtain ⟨other, hother, rfl⟩ := List.mem_map.mp hm
  simp only [Meaning.same, beq_iff_eq]
  rintro rfl
  exact h hother

section Pairs

variable {fields : List (Field α)} {y : Yaml} (htrail : y.trail = []) (hnull : y.node.isNullMapping = false)
include htrail hnull

/-- The pairs of the lines are taken one after the other. -/
theorem reads_putPairs {items : List (Item α)} (hitems : ∀ i ∈ items, i.Good fields)
    (hnodup : (items.map name).Nodup) (met : List String) (hmet : ∀ i ∈ items, i.name ∉ met) (old : α) :
    Reads (putPairs (putField fields) y false (items.map fun i => i.line.pair) (met.map .text) old)
      (items.foldl (fun r i => i.set r) old, ((items.map name).reverse ++ met).map .text) := by
  induction items generalizing met old with
  | nil => exact Reads.pure _
  | cons i items ih =>
    have hi := hitems i List.mem_cons_self
    rw [List.map_cons, List.nodup_cons] at hnodup
    have hrest := ih (fun j hj => hitems j (List.mem_cons_of_mem i hj)) hnodup.2
      (i.name :: met) (fun j hj => by
        rw [List.mem_cons, not_or]
        exact ⟨fun he => hnodup.1 (he ▸ List.mem_map_of_mem hj), hmet j (List.mem_cons_of_mem i hj)⟩) (i.set old)
    rw [putPairs, List.map_cons, List.foldlM_cons, List.map_cons, List.reverse_cons, List.append_assoc]
    refine Reads.bind (a := (i.set old, (i.name :: met).map Meaning.text)) ?_ hrest
    dsimp only
    rw [isMerge_pair hi.line.name, if_neg Bool.false_ne_true]
    refine (reads_keyName? hi.name (y := y.child i.line.pair.1) htrail rfl).bind ?_
    dsimp only
    rw [Bool.false_and, if_neg Bool.false_ne_true, holds_text (hmet i List.mem_cons_self), hnull]
    exact (hi.read (y.child i.line.pair.2) htrail rfl old).bind (Reads.pure _)

/-- They are taken up to the first one that is refused. -/
theorem refuses_putPairs {items : List (Item α)} (hitems : ∀ i ∈ items, i.Good fields) {i : Item α}
    (hi : i.Bad fields) (rest : List (Item α)) (hnodup : ((items ++ i :: rest).map name).Nodup) (old : α) :
    Refuses (putPairs (putField fields) y false ((items ++ i :: rest).map fun i => i.line.pair) [] old) := by
  rw [List.map_append, List.map_cons, List.nodup_append] at hnodup
  obtain ⟨hitemsNodup, -, hapart⟩ := hnodup
  have hnew : i.name ∉ (items.map name).reverse ++ [] := by
    rw [List.append_nil, List.mem_reverse]
    exact fun hmem => hapart _ hmem _ List.mem_cons_self rfl
  rw [putPairs, List.map_append, List.foldlM_append]
  refine (reads_putPairs htrail hnull hitems hitemsNodup [] (fun _ _ => List.not_mem_nil) old).refuses ?_
  rw [List.map_cons, List.foldlM_cons]
  refine Refuses.bind ?_ _
  dsimp only
  rw [isMerge_pair hi.line.name, if_neg Bool.false_ne_true]
  refine (reads_keyName? hi.name (y := y.child i.line.pair.1) htrail rfl).refuses ?_
  dsimp only
  rw [Bool.false_and, if_neg Bool.false_ne_true, holds_text hnew, hnull]
  exact (hi.read (y.child i.line.pair.2) htrail rfl _).bind _

end Pairs

theorem uniqueKeys_pairs {items : List (Item α)} (hnodup : (items.map name).Nodup) :
    uniqueKeys (items.map fun i => i.line.pair) = true := by
  induction items with
  | nil => rfl
  | cons i items ih =>
    rw [List.map_cons, List.nodup_cons] at hnodup
    have hnone : ((items.map fun i => i.line.pair).any fun x => x.1.keyText == i.line.pair.1.keyText) = false := by
      rw [List.any_eq_false]
      intro pair hpair
      obtain ⟨j, hj, rfl⟩ := List.mem_map.mp hpair
      rw [beq_iff_eq]
      intro he
      have hname : j.name = i.name := congrArg Prod.snd he
      exact hnodup.1 (hname ▸ List.mem_map_of_mem hj)
    rw [List.map_cons]
    change (!((items.map fun i => i.line.pair).any fun x => x.1.keyText == i.line.pair.1.keyText)
      && uniqueKeys (items.map fun i => i.line.pair)) = true
    rw [hnone, ih hnodup.2]
    rfl

theorem mergeSource?_pairs {items : List (Item α)} (h : ∀ i ∈ items, IsName i.line.name) :
    mergeSource? (items.map fun i => i.line.pair) = none := by
  rw [mergeSource?, Option.map_eq_none_iff, List.find?_eq_none]
  intro pair hpair
  obtain ⟨i, hi, rfl⟩ := List.mem_map.mp (List.mem_reverse.mp hpair)
  exact Bool.eq_false_iff.mp (isMerge_pair (h i hi))

/-- The lines of a record are read into the record. -/
theorem reads_record {fields : List (Field α)} {items : List (Item α)} (hitems : ∀ i ∈ items, i.Good fields)
    (hnodup : (items.map name).Nodup) {d : Document} (old : α) :
    Reads (record fields old ⟨.mapping none (items.map fun i => i.line.pair), d, []⟩)
      (some (items.foldl (fun r i => i.set r) old)) := by
  obtain ⟨y, hy⟩ : ∃ y : Yaml, y = ⟨.mapping none (items.map fun i => i.line.pair), d, []⟩ := ⟨_, rfl⟩
  have htrail : y.trail = [] := by rw [hy]
  have hnode : y.node = .mapping none (items.map fun i => i.line.pair) := by rw [hy]
  have hpairs := reads_putPairs htrail (by rw [hnode]; rfl) hitems hnodup []
    (fun i _ => List.not_mem_nil) old
  rw [← hy]
  refine (reads_enter htrail fun number name target he => by rw [hnode] at he; cases he).bind ?_
  rw [hnode]
  refine Reads.bind (a := (items.foldl (fun r i => i.set r) old, ((items.map name).reverse ++ []).map .text)) ?_
    (Reads.pure _)
  rw [depthOf, putMapping, uniqueKeys_pairs hnodup]
  refine hpairs.bind ?_
  rw [mergeSource?_pairs fun i hi => (hitems i hi).line.name]
  exact Reads.pure _

/-- A line that its field refuses stops the reading of the record. -/
theorem refuses_record {fields : List (Field α)} {items : List (Item α)} (hitems : ∀ i ∈ items, i.Good fields)
    {i : Item α} (hi : i.Bad fields) (rest : List (Item α)) (hnodup : ((items ++ i :: rest).map name).Nodup)
    {d : Document} (old : α) :
    Refuses (record fields old ⟨.mapping none ((items ++ i :: rest).map fun i => i.line.pair), d, []⟩) := by
  obtain ⟨y, hy⟩ : ∃ y : Yaml, y = ⟨.mapping none ((items ++ i :: rest).map fun i => i.line.pair), d, []⟩ := ⟨_, rfl⟩
  have htrail : y.trail = [] := by rw [hy]
  have hnode : y.node = .mapping none ((items ++ i :: rest).map fun i => i.line.pair) := by rw [hy]
  rw [← hy]
  refine (reads_enter htrail fun number name target he => by rw [hnode] at he; cases he).refuses ?_
  rw [hnode]
  refine Refuses.bind ?_ _
  rw [depthOf, putMapping, uniqueKeys_pairs hnodup]
  exact (refuses_putPairs htrail (by rw [hnode]; rfl) hitems hi rest hnodup old).bind _

/-! ## The text of a record -/

/-- The document of the text of a record. -/
theorem document_lines {items : List (Item α)} (hne : items ≠ []) (hitems : ∀ i ∈ items, i.line.Good) {s : String}
    (hs : s.toList = items.flatMap fun i => i.line.chars) :
    ∃ steps, Document.read s.toUTF8 = .ok (some ⟨.mapping none (items.map fun i => i.line.pair), [], steps⟩) := by
  have hlines : ∀ x ∈ items.map Item.line, x.Good := by
    intro x hx
    obtain ⟨i, hi, rfl⟩ := List.mem_map.mp hx
    exact hitems i hi
  rw [← List.flatMap_map] at hs
  obtain ⟨hchars, hbroken⟩ := ofBytes_toUTF8 (hs ▸ Line.isAscii_flatMap hlines)
  have htokens := Line.tokens_flatMap (by simpa using hne) hlines (hchars.trans hs) hbroken
  obtain ⟨steps, hdocument⟩ := ofTokens_lines (items.map Item.line)
  rw [← htokens, List.map_map] at hdocument
  exact ⟨steps, hdocument⟩

/-- The text of a record is read as the record. -/
theorem decode_lines {fields : List (Field α)} {items : List (Item α)} (hne : items ≠ [])
    (hitems : ∀ i ∈ items, i.Good fields) (hnodup : (items.map name).Nodup) {s : String}
    (hs : s.toList = items.flatMap fun i => i.line.chars) (old : α) :
    decode (record fields) old s.toUTF8 = .ok (items.foldl (fun r i => i.set r) old) := by
  obtain ⟨steps, hdocument⟩ := document_lines hne (fun i hi => (hitems i hi).line) hs
  rw [decode, decodeWith_of_reads (record fields old) hdocument (reads_record hitems hnodup old)]
  rfl

/-- The text of a record is refused for one value in it. -/
theorem decode_lines_of_bad {fields : List (Field α)} (items rest : List (Item α))
    (hitems : ∀ i ∈ items, i.Good fields) {i : Item α} (hi : i.Bad fields) (hrest : ∀ i ∈ rest, i.line.Good)
    (hnodup : ((items ++ i :: rest).map name).Nodup) {s : String}
    (hs : s.toList = (items ++ i :: rest).flatMap fun i => i.line.chars) (old : α) :
    decode (record fields) old s.toUTF8 = .error .mismatch := by
  have hlines : ∀ j ∈ items ++ i :: rest, j.line.Good := by
    simp only [List.forall_mem_append, List.forall_mem_cons]
    exact ⟨fun j hj => (hitems j hj).line, hi.line, hrest⟩
  obtain ⟨steps, hdocument⟩ := document_lines (by simp) hlines hs
  rw [decode, decodeWith_of_refuses (record fields old) hdocument (refuses_record hitems hi rest hnodup old)]
  rfl

end Item

end BlockWorld.Data.Yaml
