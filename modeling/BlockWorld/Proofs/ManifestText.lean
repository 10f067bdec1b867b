import BlockWorld.Proofs.Data.Yaml.Keeping
import BlockWorld.Proofs.Data.Yaml.Record
import BlockWorld.Proofs.Manifest
import BlockWorld.Proofs.Text.Uuid
import BlockWorld.Save.ArchiveFile
/-!
# A manifest is read as it was written

    m.Valid → m.Readable → decode m.encode = .ok m                        `decode_encode`

A manifest is a record of seven lines, of which the last may be missing (`items`). The format, the seed and
the count are numbers, two fields are times, and two are texts. Everything about lines and scalars is known
for records of any kind; what is left is to say which lines these are (`toList_text`), that their names differ
(`nodup_items`), that setting the fields one after the other gives the manifest (`foldl_items`), and that each
value is read into its field (`Readable.good_items`, from `good_integer`, `good_timestamp` and `good_text`).

## What does not come back

`Readable` asks two things of a manifest. Its times have to be proper and near, with an offset of less than 25
hours, and its identifier and its compression have to be texts that are read as they are written.

* Times that were read are proper (`proper_of_decode`), but their offset may be just 25 hours. Then the text
  that is written is no time, and the manifest is refused (`decode_encode_of_refused`).
* The identifier has passed a check that knows four forms, and in one of them the first and the last byte may
  be anything. If it starts with a line end or a tab it is written as a literal block that loses it
  (`losesStart`); all other identifiers are fine (`writable_of_isValid`).
* The compression is one of a few names (`writable_of_ofName`).
-/
namespace BlockWorld.Save

open Data Data.Yaml

namespace Manifest

/-! ## Fields -/

/-- The lines of a manifest and the fields they set. The two texts are written as they need it. -/
def items (m : Manifest) (plainId plainCompression : Bool) : List (Item Manifest) :=
  [⟨⟨"format".toList, (Text.integer m.format).toList ++ ['\n'], (Text.integer m.format).toList, true⟩,
      fun r => { r with format := m.format }⟩,
   ⟨⟨"world_id".toList, (scalarLine m.worldId).toList, m.worldId.toList, plainId⟩,
      fun r => { r with worldId := m.worldId }⟩,
   ⟨⟨"seed".toList, (Text.integer m.seed).toList ++ ['\n'], (Text.integer m.seed).toList, true⟩,
      fun r => { r with seed := m.seed }⟩,
   ⟨⟨"created_at".toList, m.createdAt.text.toList ++ ['\n'], m.createdAt.text.toList, true⟩,
      fun r => { r with createdAt := m.createdAt }⟩,
   ⟨⟨"saved_at".toList, m.savedAt.text.toList ++ ['\n'], m.savedAt.text.toList, true⟩,
      fun r => { r with savedAt := m.savedAt }⟩,
   ⟨⟨"megachunks".toList, (Text.integer m.megachunks).toList ++ ['\n'], (Text.integer m.megachunks).toList, true⟩,
      fun r => { r with megachunks := m.megachunks }⟩]
  ++ if m.compression = "" then [] else
    [⟨⟨"compression".toList, (scalarLine m.compression).toList, m.compression.toList, plainCompression⟩,
      fun r => { r with compression := m.compression }⟩]

theorem toList_text (m : Manifest) (plainId plainCompression : Bool) :
    m.text.toList = (m.items plainId plainCompression).flatMap fun i => i.line.chars := by
  have hformat : "format: ".toList = "format".toList ++ [':', ' '] := by decide
  have hid : "world_id: ".toList = "world_id".toList ++ [':', ' '] := by decide
  have hseed : "seed: ".toList = "seed".toList ++ [':', ' '] := by decide
  have hcreated : "created_at: ".toList = "created_at".toList ++ [':', ' '] := by decide
  have hsaved : "saved_at: ".toList = "saved_at".toList ++ [':', ' '] := by decide
  have hcount : "megachunks: ".toList = "megachunks".toList ++ [':', ' '] := by decide
  have hcompression : "compression: ".toList = "compression".toList ++ [':', ' '] := by decide
  unfold text items
  split
  all_goals
    simp only [String.toList_append, hformat, hid, hseed, hcreated, hsaved, hcount, hcompression,
      show "\n".toList = ['\n'] by decide, show "".toList = [] by decide, Line.chars,
      List.flatMap_cons, List.flatMap_nil, List.append_nil, List.append_assoc, List.cons_append, List.nil_append]

theorem foldl_items (m : Manifest) (plainId plainCompression : Bool) :
    (m.items plainId plainCompression).foldl (fun r i => i.set r) blank = m := by
  rw [items]
  split
  · rename_i hnone
    obtain ⟨format, worldId, seed, createdAt, savedAt, megachunks, compression⟩ := m
    obtain rfl : compression = "" := hnone
    rfl
  · rfl

theorem nodup_items (m : Manifest) (plainId plainCompression : Bool) :
    ((m.items plainId plainCompression).map Item.name).Nodup := by
  rw [items]
  split
  · simp only [List.append_nil, List.map_cons, List.map_nil, Item.name, String.ofList_toList]
    decide
  · simp only [List.cons_append, List.nil_append, List.map_cons, List.map_nil, Item.name, String.ofList_toList]
    decide

/-! ## The whole manifest -/

/-- What a manifest needs to be read as it was written. -/
structure Readable (m : Manifest) : Prop where
  worldId : Writable m.worldId
  createdAt : m.createdAt.Proper
  createdNear : m.createdAt.Near
  savedAt : m.savedAt.Proper
  savedNear : m.savedAt.Near
  compression : Writable m.compression

/-- The names of the fields. -/
def names : List String :=
  ["format", "world_id", "seed", "created_at", "saved_at", "megachunks", "compression"]

/-- A field is found by its name, which is not taken for something else. -/
theorem isName_of_mem_names {name : String} (h : name ∈ names) :
    IsName name.toList ∧ resolve true name ≠ .null := by
  have hall : (names.all fun name => name.toList ≠ [] ∧ name.toList.all isNameChar ∧ name.toList.length ≤ keyReach
      ∧ (resolve true name).same (.text name)) = true := by decide +kernel
  obtain ⟨hne, hchars, hshort, hsame⟩ := of_decide_eq_true (List.all_eq_true.mp hall name h)
  refine ⟨⟨hne, List.all_eq_true.mp hchars, hshort⟩, fun hnull => ?_⟩
  rw [hnull] at hsame
  cases hsame

theorem good_integer (name : String) (hname : name ∈ names)
    {take : Manifest → Int64} {put : Manifest → Int64 → Manifest}
    (hfind : fields.find? (·.name == name) = some (field name int64 take put)) (n : Int64) :
    Item.Good fields ⟨⟨name.toList, (Text.integer n).toList ++ ['\n'], (Text.integer n).toList, true⟩,
      fun r => put r n⟩ :=
  Item.good_of_reads (isName_of_mem_names hname).1 (isName_of_mem_names hname).2 (readsAs_integer n)
    (isAscii_of_isFigure fun _ hc => isFigure_of_mem_integer hc) hfind fun _ htrail hnode old => reads_int64 htrail hnode old

theorem good_timestamp (name : String) (hname : name ∈ names)
    {take : Manifest → Timestamp} {put : Manifest → Timestamp → Manifest}
    (hfind : fields.find? (·.name == name) = some (field name timestamp take put)) {t : Timestamp}
    (h : t.Proper) (hnear : t.Near) :
    Item.Good fields ⟨⟨name.toList, t.text.toList ++ ['\n'], t.text.toList, true⟩, fun r => put r t⟩ :=
  Item.good_of_reads (isName_of_mem_names hname).1 (isName_of_mem_names hname).2 (readsAs_text h)
    (isAscii_of_isFigure fun _ hc => isFigure_of_mem_text h hc) hfind fun _ htrail hnode old =>
    reads_timestamp htrail h hnear hnode old

theorem bad_timestamp (name : String) (hname : name ∈ names)
    {take : Manifest → Timestamp} {put : Manifest → Timestamp → Manifest}
    (hfind : fields.find? (·.name == name) = some (field name timestamp take put)) {t : Timestamp}
    (h : t.Proper) (hmeans : meansText t.text = true) (hparse : Timestamp.parse? t.text = none) :
    Item.Bad fields ⟨⟨name.toList, t.text.toList ++ ['\n'], t.text.toList, true⟩, fun r => put r t⟩ :=
  Item.bad_of_refuses (isName_of_mem_names hname).1 (isName_of_mem_names hname).2 (readsAs_text h)
    (isAscii_of_isFigure fun _ hc => isFigure_of_mem_text h hc) hfind _ fun _ htrail hnode old =>
    refuses_timestamp htrail hnode hmeans hparse old

theorem good_text (name : String) (hname : name ∈ names)
    {take : Manifest → String} {put : Manifest → String → Manifest}
    (hfind : fields.find? (·.name == name) = some (field name string take put)) {s : String} (h : Writable s)
    {plain : Bool} (hvalue : ReadsAs (scalarLine s).toList s.toList plain) (hmeans : plain = true → meansText s = true) :
    Item.Good fields ⟨⟨name.toList, (scalarLine s).toList, s.toList, plain⟩, fun r => put r s⟩ :=
  Item.good_of_reads (isName_of_mem_names hname).1 (isName_of_mem_names hname).2 hvalue h.isAscii_scalarLine hfind
    fun _ htrail hnode old => reads_string htrail hnode old hmeans

theorem Readable.good_items {m : Manifest} (h : m.Readable) :
    ∃ plainId plainCompression, ∀ i ∈ m.items plainId plainCompression, i.Good fields := by
  obtain ⟨plainId, hid, hmeansId⟩ := h.worldId.readsAs_scalarLine
  obtain ⟨plainCompression, hcompression, hmeansCompression⟩ := h.compression.readsAs_scalarLine
  refine ⟨plainId, plainCompression, ?_⟩
  rw [items, List.forall_mem_append]
  constructor
  · simp only [List.forall_mem_cons]
    exact ⟨good_integer "format" (by decide) rfl _, good_text "world_id" (by decide) rfl h.worldId hid hmeansId,
      good_integer "seed" (by decide) rfl _,
      good_timestamp "created_at" (by decide) rfl h.createdAt h.createdNear,
      good_timestamp "saved_at" (by decide) rfl h.savedAt h.savedNear,
      good_integer "megachunks" (by decide) rfl _, nofun⟩
  · split
    · nofun
    · simp only [List.forall_mem_cons]
      exact ⟨good_text "compression" (by decide) rfl h.compression hcompression hmeansCompression, nofun⟩

/-- A manifest is read as it was written. -/
theorem decode_encode {m : Manifest} (hvalid : m.Valid) (h : m.Readable) : decode m.encode = .ok m := by
  obtain ⟨plainId, plainCompression, hitems⟩ := h.good_items
  have hparsed := Item.decode_lines (by unfold items; nofun) hitems (nodup_items ..)
    (toList_text m plainId plainCompression) blank
  rw [foldl_items] at hparsed
  exact (decode_eq_ok_iff _ _).mpr ⟨hparsed, hvalid⟩

/-- A manifest is refused if its time of creation is written as a text that is no time. -/
theorem decode_encode_of_refused {m : Manifest} (hid : Writable m.worldId) (hcompression : Writable m.compression)
    (hcreated : m.createdAt.Proper) (hsaved : m.savedAt.Proper) (hmeans : meansText m.createdAt.text = true)
    (hparse : Timestamp.parse? m.createdAt.text = none) : decode m.encode = .error (.parse .mismatch) := by
  obtain ⟨plainId, hreadsId, hmeansId⟩ := hid.readsAs_scalarLine
  obtain ⟨plainCompression, hreads, -⟩ := hcompression.readsAs_scalarLine
  -- The reading passes the format, the identifier and the seed, and stops at the fourth line.
  refine decode_of_error (Item.decode_lines_of_bad ((m.items plainId plainCompression).take 3)
    ((m.items plainId plainCompression).drop 4) ?_ (bad_timestamp "created_at" (by decide) rfl hcreated hmeans hparse)
    ?_ (nodup_items m plainId plainCompression)
    (toList_text m plainId plainCompression) blank)
  · simp only [items, List.cons_append, List.nil_append, List.take_succ_cons, List.take_zero, List.forall_mem_cons]
    exact ⟨good_integer "format" (by decide) rfl _, good_text "world_id" (by decide) rfl hid hreadsId hmeansId,
      good_integer "seed" (by decide) rfl _, nofun⟩
  · obtain ⟨hsavedName, hsavedNull⟩ := isName_of_mem_names (show "saved_at" ∈ names by decide)
    obtain ⟨hname, hnull⟩ := isName_of_mem_names (show "compression" ∈ names by decide)
    have hsavedLine := (Item.stands hsavedName hsavedNull (readsAs_text hsaved)
      (isAscii_of_isFigure fun _ hc => isFigure_of_mem_text hsaved hc) (id : Manifest → Manifest)).line
    have hline := (Item.stands hname hnull hreads hcompression.isAscii_scalarLine (id : Manifest → Manifest)).line
    simp only [items, List.cons_append, List.nil_append, List.drop_succ_cons, List.drop_zero, List.forall_mem_cons]
    refine ⟨hsavedLine, (good_integer "megachunks" (by decide) rfl _).line, ?_⟩
    split
    · nofun
    · simp only [List.forall_mem_cons]
      exact ⟨hline, nofun⟩

/-! ## Manifests that were read -/

/-- Times in a manifest that was read are proper. -/
theorem proper_of_decode {data : ByteArray} {m : Manifest} (h : decode data = .ok m) :
    m.createdAt.Proper ∧ m.savedAt.Proper := by
  have hdecoded := ((decode_eq_ok_iff data m).mp h).1
  refine decode_keeps (P := fun m : Manifest => m.createdAt.Proper ∧ m.savedAt.Proper) ?_
    ⟨Timestamp.proper_zero, Timestamp.proper_zero⟩ hdecoded
  have hcreated : (field "created_at" timestamp (·.createdAt) fun m v => { m with createdAt := v }).Keeps
      fun m : Manifest => m.createdAt.Proper ∧ m.savedAt.Proper :=
    keeps_field (fun _ h => h.1) (fun _ _ h hv => ⟨hv, h.2⟩) gives_timestamp
  have hsaved : (field "saved_at" timestamp (·.savedAt) fun m v => { m with savedAt := v }).Keeps
      fun m : Manifest => m.createdAt.Proper ∧ m.savedAt.Proper :=
    keeps_field (fun _ h => h.2) (fun _ _ h hv => ⟨h.1, hv⟩) gives_timestamp
  rw [fields]
  simp only [List.forall_mem_cons]
  exact ⟨keeps_field_of_indifferent fun _ _ h => h, keeps_field_of_indifferent fun _ _ h => h,
    keeps_field_of_indifferent fun _ _ h => h, hcreated, hsaved, keeps_field_of_indifferent fun _ _ h => h,
    keeps_field_of_indifferent fun _ _ h => h, nofun⟩

/-! ## Identifiers -/

/-- Whether a text is written as a literal block and starts with something that is lost there: a line end
counts as an empty line in front of the block, and a tab as part of its indentation. -/
def losesStart (s : String) : Bool :=
  s.toList.contains '\n' && fitsLiteral s.toList
    && (s.toList.head? == some '\n' || s.toList.head? == some '\t')

theorem isBreak_of_shown {c : Char} (hascii : c.toNat < 128) (h : (isShown c || c == '\t') = true)
    (hne : c ≠ '\n') : isBreak c = false := by
  have hall := forall_ascii (p := fun c => !(isShown c || c == '\t') || c == '\n' || !isBreak c)
    (by decide +kernel) hascii
  simpa [h, hne] using hall

/-- All other identifiers are read as they were written. If one has more than one line, its last character is
the line end. -/
theorem writable_of_isValid {s : String} (h : Text.Uuid.isValid s = true) (hstart : losesStart s = false) :
    Writable s := by
  obtain ⟨hascii, a, middle, b, hs, hmiddle⟩ := Text.Uuid.isValid_forms h
  refine ⟨hascii, fun hmem hfits => ?_⟩
  rw [losesStart, List.contains_iff_mem.mpr hmem, hfits] at hstart
  rw [hs] at hmem hfits hascii hstart
  obtain ⟨hnewline, htab⟩ : a ≠ '\n' ∧ a ≠ '\t' := by simpa using hstart
  have hshown : (isShown a || a == '\t') = true := by
    rw [fitsLiteral, Bool.and_eq_true, Bool.and_eq_true] at hfits
    exact List.all_eq_true.mp hfits.1.1 a List.mem_cons_self
  have hlast : b = '\n' := by
    rcases List.mem_cons.mp hmem with ha | hrest
    · exact absurd ha.symm hnewline
    · rcases List.mem_append.mp hrest with hm | hb
      · exact absurd (hmiddle _ hm) (by decide)
      · exact (List.mem_singleton.mp hb).symm
  refine ⟨a :: middle, by rw [hs, hlast]; rfl, List.cons_ne_nil _ _, ?_, ?_⟩
  · simp only [List.forall_mem_cons]
    exact ⟨isBreak_of_shown (hascii a List.mem_cons_self) hshown hnewline, hmiddle⟩
  · rw [List.head?_cons]
    exact fun he => htab (Option.some.inj he)

/-- The name of a compression is read as it was written. -/
theorem writable_of_ofName {name : String} {compression : Compression}
    (h : Compression.ofName? name = some compression) : Writable name := by
  have hall : ∀ n ∈ ["deflate", "zstd"], (n.toList.all fun c => c.toNat < 128) = true ∧ '\n' ∉ n.toList := by decide
  have hname : name ∈ ["deflate", "zstd"] := by
    rw [Compression.ofName?] at h
    split at h
    · rename_i he
      simp [he]
    · split at h
      · rename_i he
        simp [he]
      · cases h
  obtain ⟨hascii, hline⟩ := hall name hname
  exact ⟨fun c hc => of_decide_eq_true (List.all_eq_true.mp hascii c hc), fun hmem => absurd hmem hline⟩

end Manifest

end BlockWorld.Save
