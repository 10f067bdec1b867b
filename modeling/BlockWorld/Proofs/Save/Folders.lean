import BlockWorld.Proofs.Save.Files
/-!
Trees to which folders have been added (`Grown`). A path that led to something goes on leading there, and
one that was refused is refused for the same reason, unless the reason was that something is missing
(`Grown.stat_eq`). Then it may now lead to a folder, but not to a file, as long as it does not go back up
(`Grown.stat_folder`). A folder can be made with all that is missing above it in the one tree exactly if it
can in the other (`Grown.isOk_mkdirAll`).

How the proof goes. The way along a path is compared in the two trees name by name (`Grown.walk`). It is the
same until a name is missing in the smaller tree; from there on the larger tree has folders only, so the way
ends at a folder or at something missing again (`Grown.walk_below`), as long as it never goes back up to where
files may be. This needs that nothing stands below a place where nothing is (`Rooted`).

That a folder can be made is decided by the folders above it, one after the other from the top. In the larger
tree more of them are there already, and a folder that is there can be made again; so both trees agree at each
of them (`Grown.makeFolders_textsAfter`, by induction on the names left). A path through folders that are
there fails at its last name at most (`find_textOf_ne`).
-/
namespace BlockWorld.Save.Files

variable {fs fs' : Files} {key : PathKey} {node : Node}

/-- A tree to which nothing but folders has been added. -/
structure Grown (fs fs' : Files) : Prop where
  here : fs'.here = fs.here
  kept : ∀ {key node}, fs.node? key = some node → fs'.node? key = some node
  added : ∀ {key}, fs.node? key = none → fs'.node? key = none ∨ fs'.node? key = some .folder

namespace Grown

theorem refl (fs : Files) : Grown fs fs := ⟨rfl, id, .inl⟩

theorem numbered (fs : Files) (n : Nat) : Grown fs (fs.numbered n) := ⟨rfl, id, .inl⟩

theorem of_numbered (fs : Files) (n : Nat) : Grown (fs.numbered n) fs := ⟨rfl, id, .inl⟩

theorem trans {fs₁ fs₂ fs₃ : Files} (h : Grown fs₁ fs₂) (h' : Grown fs₂ fs₃) : Grown fs₁ fs₃ := by
  refine ⟨h'.here.trans h.here, fun hk => h'.kept (h.kept hk), fun hk => ?_⟩
  rcases h.added hk with hnone | hfolder
  · exact h'.added hnone
  · exact .inr (h'.kept hfolder)

theorem put_of_free (h : fs.node? key = none) : Grown fs (fs.put key .folder) := by
  have hput : ∀ k, (fs.put key .folder).node? k = if k = key then some .folder else fs.node? k :=
    node?_put (ne_nil_of_free h) .folder
  refine ⟨rfl, fun {k n} hk => ?_, fun {k} hk => ?_⟩
  · have hne : k ≠ key := fun he => by rw [he, h] at hk; cases hk
    rw [hput, if_neg hne, hk]
  · rw [hput]
    split
    · exact .inr rfl
    · exact .inl hk

theorem makeFolders (fs : Files) (paths : List String) : Grown fs (fs.makeFolders paths).1 := by
  induction paths generalizing fs with
  | nil => exact .refl fs
  | cons path rest ih =>
    obtain ⟨key, h⟩ | ⟨key, h⟩ | ⟨e, h⟩ := fs.makeFolders_cons path rest
    · rw [makeFolders_of_folder h]
      exact ih fs
    · rw [makeFolders_of_free h]
      exact .trans (.put_of_free (free_of_find h)) (ih _)
    · rw [h]
      exact .refl fs

theorem mkdirAll (fs : Files) (path : String) : Grown fs (fs.mkdirAll path).1 :=
  .makeFolders fs (pathTexts path)

theorem keepsFolders (h : Grown fs fs') : KeepsFolders fs fs' := ⟨h.here, h.kept⟩

/-- The same folder is made in both trees, unless it was there in the larger one. -/
theorem put (h : Grown fs fs') (hkey : key ≠ []) :
    Grown (fs.put key .folder) (fs'.put key .folder) := by
  have hput : ∀ k, (fs.put key .folder).node? k = if k = key then some .folder else fs.node? k :=
    node?_put hkey .folder
  have hput' : ∀ k, (fs'.put key .folder).node? k = if k = key then some .folder else fs'.node? k :=
    node?_put hkey .folder
  refine ⟨h.here, fun {k n} hk => ?_, fun {k} hk => ?_⟩
  · rw [hput] at hk
    rw [hput']
    split at hk
    · rwa [if_pos ‹_›]
    · rw [if_neg ‹_›, h.kept hk]
  · rw [hput] at hk
    rw [hput']
    split at hk
    · cases hk
    · rw [if_neg ‹_›]
      exact h.added hk

theorem put_left (h : Grown fs fs') (hkey : key ≠ []) (hthere : fs'.node? key = some .folder) :
    Grown (fs.put key .folder) fs' := by
  have hput : ∀ k, (fs.put key .folder).node? k = if k = key then some .folder else fs.node? k :=
    node?_put hkey .folder
  refine ⟨h.here, fun {k n} hk => ?_, fun {k} hk => ?_⟩
  · rw [hput] at hk
    split at hk
    · rename_i he
      rw [he, hthere, hk]
    · exact h.kept hk
  · rw [hput] at hk
    split at hk
    · cases hk
    · exact h.added hk

/-! ## Following paths -/

/-- What becomes of a way: it is as before, or it ended at something missing. If only its last name was
missing, then a folder may stand there now. -/
theorem walk (h : Grown fs fs') (place : PathKey) (names : List String) :
    fs'.walk place names = fs.walk place names ∨ fs.walk place names = .error .noSuchFile
      ∨ ∃ key, fs.walk place names = .ok (key, none)
        ∧ fs'.walk place names = .ok (key, some .folder) ∧ fs'.node? key = some .folder := by
  induction names generalizing place with
  | nil => exact .inl rfl
  | cons name rest ih =>
    by_cases hstay : name = "" ∨ name = "."
    · rw [Files.walk, Files.walk, if_pos hstay, if_pos hstay]
      exact ih place
    by_cases hup : name = ".."
    · rw [Files.walk, Files.walk, if_neg hstay, if_neg hstay, if_pos hup, if_pos hup]
      exact ih place.dropLast
    by_cases hsize : nameLimit < name.utf8ByteSize
    · rw [Files.walk, Files.walk, if_neg hstay, if_neg hstay, if_neg hup, if_neg hup, if_pos hsize,
        if_pos hsize]
      exact .inl rfl
    have hname : ProperName name := ⟨hstay, hup, hsize⟩
    cases hnode : fs.node? (place ++ [name]) with
    | some node =>
      by_cases hfolder : node = .folder
      · subst hfolder
        rw [walk_of_folder hname hnode, walk_of_folder hname (h.kept hnode)]
        exact ih _
      · rw [walk_of_file hname hnode hfolder, walk_of_file hname (h.kept hnode) hfolder]
        exact .inl rfl
    | none =>
      rw [walk_of_none hname hnode]
      rcases h.added hnode with hnone | hfolder
      · rw [walk_of_none hname hnone]
        exact .inl rfl
      · rw [walk_of_folder hname hfolder]
        by_cases hrest : rest.all (· == "") = true
        · rw [if_pos hrest]
          exact .inr (.inr ⟨_, rfl, (leads_blank hrest _).walk, hfolder⟩)
        · rw [if_neg hrest]
          exact .inr (.inl rfl)

theorem find (h : Grown fs fs') (path : String) :
    fs'.find path = fs.find path ∨ fs.find path = .error .noSuchFile
      ∨ ∃ key, fs.find path = .ok (key, none)
        ∧ fs'.find path = .ok (key, some .folder) ∧ fs'.node? key = some .folder := by
  by_cases hpath : Followable path
  · rw [find_of_followable hpath, find_of_followable hpath, h.keepsFolders.startOf]
    exact h.walk ..
  · exact .inl (find_of_not_followable hpath fs fs')

/-- What stands at a path stays, and a refusal has the same reason, unless something was missing. -/
theorem stat_eq (h : Grown fs fs') {path : String} (hpath : fs.stat path ≠ .error .noSuchFile) :
    fs'.stat path = fs.stat path := by
  rw [stat] at hpath
  rcases h.find path with heq | hmissing | ⟨key, hfree, -⟩
  · rw [stat, stat, heq]
  · rw [hmissing] at hpath
    exact absurd rfl hpath
  · rw [hfree] at hpath
    exact absurd rfl hpath

end Grown

/-! ## Paths that led to nothing -/

/-- A path that led to nothing and no longer does, such as `out/` once the folder `out` is made. -/
structure Appears (fs fs' : Files) (path : String) : Prop where
  before : fs.stat path = .error .noSuchFile
  after : fs'.stat path ≠ .error .noSuchFile

/-- In a tree between two others a path leads where it does in the smaller of them, unless it appears in
the larger one. -/
theorem Grown.stat_between {fs₁ fs₂ fs₃ : Files} (h : Grown fs₁ fs₂) (h' : Grown fs₂ fs₃)
    (path : String) :
    fs₂.stat path = fs₁.stat path
      ∨ Appears fs₁ fs₃ path ∧ fs₂.stat path = fs₃.stat path := by
  by_cases hbefore : fs₁.stat path = .error .noSuchFile
  · by_cases hnow : fs₂.stat path = .error .noSuchFile
    · exact .inl (hnow.trans hbefore.symm)
    · have hlater := h'.stat_eq hnow
      exact .inr ⟨⟨hbefore, hlater ▸ hnow⟩, hlater.symm⟩
  · exact .inl (h.stat_eq hbefore)

/-- A tree without anything below a place where nothing is. -/
def Rooted (fs : Files) : Prop :=
  ∀ place name, fs.node? place = none → fs.node? (place ++ [name]) = none

/-- Below a place where nothing was there are only folders. -/
theorem Grown.walk_below (h : Grown fs fs') (hroot : fs.Rooted) {place : PathKey}
    {names : List String} (hplace : fs.node? place = none) (hup : ".." ∉ names)
    (hwalk : fs'.walk place names = .ok (key, some node)) : node = .folder := by
  induction names generalizing place with
  | nil =>
    cases hwalk
    rfl
  | cons name rest ih =>
    have hrest : ".." ∉ rest := fun hmem => hup (List.mem_cons_of_mem _ hmem)
    have hfree := hroot place name hplace
    cases leads_of_walk hwalk with
    | stay _ hl => exact ih hplace hrest hl.walk
    | up => exact absurd List.mem_cons_self hup
    | down _ _ hl => exact ih hfree hrest hl.walk
    | file _ hnode hfile =>
      rcases h.added hfree with hnone | hfolder
      · rw [hnone] at hnode
        cases hnode
      · rw [hfolder] at hnode
        cases hnode
        rfl

/-- A way that ended at something missing leads to a folder if it leads to anything, as long as it never
goes back up: behind a name that was missing there was nothing. -/
theorem Grown.walk_missing (h : Grown fs fs') (hroot : fs.Rooted) {place : PathKey}
    {names : List String} (hup : ".." ∉ names)
    (hmissing : ∀ key node, fs.walk place names ≠ .ok (key, some node))
    (hwalk : fs'.walk place names = .ok (key, some node)) : node = .folder := by
  induction names generalizing place with
  | nil =>
    cases hwalk
    rfl
  | cons name rest ih =>
    have hrest : ".." ∉ rest := fun hmem => hup (List.mem_cons_of_mem _ hmem)
    cases leads_of_walk hwalk with
    | stay hname hl =>
      refine ih hrest (fun k n hk => hmissing k n ?_) hl.walk
      rw [Files.walk, if_pos hname, hk]
    | up => exact absurd List.mem_cons_self hup
    | down hname _ hl =>
      cases hnode : fs.node? (place ++ [name]) with
      | none => exact h.walk_below hroot hnode hrest hl.walk
      | some found =>
        obtain rfl : found = .folder := by
          have hkept := h.kept hnode
          rw [‹fs'.node? _ = some .folder›] at hkept
          exact (Option.some.inj hkept).symm
        refine ih hrest (fun k n hk => hmissing k n ?_) hl.walk
        rw [walk_of_folder hname hnode, hk]
    | file hname hnode hfile =>
      cases hold : fs.node? (place ++ [name]) with
      | none =>
        rcases h.added hold with hnone | hfolder
        · rw [hnone] at hnode
          cases hnode
        · rw [hfolder] at hnode
          cases hnode
          rfl
      | some found =>
        obtain rfl : node = found := by
          have hkept := h.kept hold
          rw [hnode] at hkept
          exact Option.some.inj hkept
        refine absurd ?_ (hmissing (place ++ [name]) node)
        rw [walk_of_file hname hold hfile, if_pos List.isEmpty_nil]

/-- Where nothing was found there is at most a folder now. -/
theorem Grown.stat_folder (h : Grown fs fs') (hroot : fs.Rooted) {path : String}
    {problem : FileProblem} (hup : ".." ∉ namesOf path) (hmissing : fs.stat path = .error problem)
    (hstat : fs'.stat path = .ok node) : node = .folder := by
  rw [stat] at hstat
  split at hstat
  · cases hstat
  · rename_i key found hfind
    cases hstat
    have hwalk := walk_of_find hfind
    rw [h.keepsFolders.startOf] at hwalk
    refine h.walk_missing hroot hup (fun k n hk => ?_) hwalk
    rw [← find_of_followable (followable_of_find hfind)] at hk
    rw [stat, hk] at hmissing
    cases hmissing
  · cases hstat

/-! ## Making folders in a larger tree -/

/-- The text of some names. -/
def textOf (names : List (List Char)) : String := String.ofList (List.intercalate ['/'] names)

/-- The texts of names that follow others, each with all names before it. -/
def textsAfter (before : List (List Char)) : List (List Char) → List String
  | [] => []
  | name :: rest => textOf (before ++ [name]) :: textsAfter (before ++ [name]) rest

theorem textsAfter_eq (before names : List (List Char)) :
    (List.range names.length).map (fun i => textOf (before ++ names.take (i + 1)))
      = textsAfter before names := by
  induction names generalizing before with
  | nil => rfl
  | cons name rest ih =>
    rw [List.length_cons, List.range_succ_eq_map, List.map_cons, List.map_map, textsAfter,
      ← ih (before ++ [name])]
    simp [Function.comp_def]

theorem pathTexts_eq (path : String) :
    pathTexts path = (textsAfter [] (path.toList.splitOn '/')).filter (· != "") := by
  rw [← textsAfter_eq]
  rfl

theorem textOf_mem_textsAfter {before rest : List (List Char)} (hrest : rest ≠ []) :
    textOf (before ++ rest) ∈ textsAfter before rest := by
  induction rest generalizing before with
  | nil => exact absurd rfl hrest
  | cons name rest ih =>
    rw [textsAfter]
    by_cases hnil : rest = []
    · rw [hnil]
      exact List.mem_cons_self
    · have hmem : textOf (before ++ [name] ++ rest) ∈ textsAfter (before ++ [name]) rest := ih hnil
      rw [List.append_assoc, List.singleton_append] at hmem
      exact List.mem_cons_of_mem _ hmem

theorem textOf_splitOn (path : String) : textOf (path.toList.splitOn '/') = path := by
  rw [textOf, List.intercalate_splitOn, String.ofList_toList]

theorem mem_pathTexts {path : String} (h : path ≠ "") : path ∈ pathTexts path := by
  rw [pathTexts_eq, List.mem_filter]
  refine ⟨?_, bne_iff_ne.mpr h⟩
  have hmem : textOf ([] ++ path.toList.splitOn '/') ∈ textsAfter [] (path.toList.splitOn '/') :=
    textOf_mem_textsAfter (List.splitOn_ne_nil '/' path.toList)
  rwa [List.nil_append, textOf_splitOn] at hmem

/-- A folder that was made is there. -/
theorem find_mkdirAll {path : String} (hpath : path ≠ "") (h : (fs.mkdirAll path).2 = .ok ()) :
    ∃ key, (fs.mkdirAll path).1.find path = .ok (key, some .folder) :=
  hasFolders_makeFolders h path (mem_pathTexts hpath)

theorem not_mem_of_mem_splitOn {cs piece : List Char} (h : piece ∈ cs.splitOn '/') :
    '/' ∉ piece := by
  induction cs generalizing piece with
  | nil =>
    rw [List.splitOn_nil, List.mem_singleton] at h
    rw [h]
    exact List.not_mem_nil
  | cons c cs ih =>
    rw [List.splitOn_cons_eq_if_modifyHead] at h
    split at h
    · rcases List.mem_cons.mp h with rfl | hmem
      · exact List.not_mem_nil
      · exact ih hmem
    · rename_i hc
      obtain ⟨first, rest, hpieces⟩ := List.exists_cons_of_ne_nil (List.splitOn_ne_nil '/' cs)
      rw [hpieces, List.modifyHead_cons] at h
      rcases List.mem_cons.mp h with rfl | hmem
      · rintro (_ | ⟨_, hmem⟩)
        · exact hc (beq_self_eq_true '/')
        · exact ih (hpieces ▸ List.mem_cons_self) hmem
      · exact ih (hpieces ▸ List.mem_cons_of_mem first hmem)

theorem no_slash_of_splitOn {path : String} {names rest : List (List Char)}
    (h : path.toList.splitOn '/' = names ++ rest) : ∀ name ∈ names, '/' ∉ name := by
  intro name hname
  have hmem : name ∈ path.toList.splitOn '/' := h ▸ List.mem_append_left rest hname
  exact not_mem_of_mem_splitOn hmem

theorem namesOf_textOf {names : List (List Char)} (hnil : names ≠ [])
    (hnames : ∀ name ∈ names, '/' ∉ name) :
    namesOf (textOf names) = names.map String.ofList := by
  rw [namesOf, textOf, String.toList_ofList, List.splitOn_intercalate '/' hnames hnil]

theorem intercalate_prefix {before : List (List Char)} (hbefore : before ≠ [])
    (rest : List (List Char)) :
    List.intercalate ['/'] before <+: List.intercalate ['/'] (before ++ rest) := by
  induction before with
  | nil => exact absurd rfl hbefore
  | cons name before ih =>
    by_cases hnil : before = []
    · subst hnil
      by_cases hrest : rest = []
      · rw [hrest]
        exact List.prefix_rfl
      · rw [List.intercalate_singleton, List.cons_append, List.nil_append,
          List.intercalate_cons_of_ne_nil hrest, List.append_assoc]
        exact List.prefix_append ..
    · rw [List.cons_append, List.intercalate_cons_of_ne_nil hnil,
        List.intercalate_cons_of_ne_nil (by simp [hnil])]
      exact (List.prefix_append_right_inj _).mpr (ih hnil)

/-- The folders above a path are looked for from where the path is. -/
theorem startOf_textOf (fs : Files) {path : String} {before rest : List (List Char)}
    (hpath : path.toList.splitOn '/' = before ++ rest) (hbefore : before ≠ [])
    (htext : textOf before ≠ "") : fs.startOf (textOf before) = fs.startOf path := by
  obtain ⟨more, hmore⟩ := intercalate_prefix hbefore rest
  rw [← hpath, List.intercalate_splitOn] at hmore
  obtain ⟨c, cs, hcs⟩ : ∃ c cs, List.intercalate ['/'] before = c :: cs :=
    List.exists_cons_of_ne_nil fun he => htext (String.ofList_eq_empty_iff.mpr he)
  rw [startOf, startOf, textOf, String.toList_ofList, ← hmore, hcs]
  rfl

theorem Leads.walk_append {place : PathKey} {names : List String}
    (h : fs.Leads place names key (some .folder)) (more : List String) :
    fs.walk place (names ++ more) = fs.walk key more := by
  generalize hfound : some Node.folder = found at h
  induction h with
  | done place => rfl
  | stay hname _ ih => rw [List.cons_append, Files.walk, if_pos hname, ih hfound]
  | up _ ih => rw [List.cons_append, Files.walk, if_neg (by decide), if_pos rfl, ih hfound]
  | down hname hfolder _ ih => rw [List.cons_append, walk_of_folder hname hfolder, ih hfound]
  | free => cases hfound
  | file _ _ hfile => exact absurd (Option.some.inj hfound).symm hfile

/-- The last name of a path need not be there. -/
theorem walk_singleton_ne (fs : Files) (place : PathKey) (name : String) :
    fs.walk place [name] ≠ .error .noSuchFile := by
  intro h
  rw [Files.walk] at h
  dsimp only at h
  repeat' split at h
  all_goals simp_all [Files.walk]

/-- A path through folders that are there fails at most at its last name, and not because that is
missing. -/
theorem find_textOf_ne (fs : Files) {path : String} {before rest : List (List Char)} {name : List Char}
    (hpath : path.toList.splitOn '/' = before ++ name :: rest)
    (hlead : fs.Leads (fs.startOf path) (before.map String.ofList) key (some .folder))
    (htext : textOf (before ++ [name]) ≠ "") :
    fs.find (textOf (before ++ [name])) ≠ .error .noSuchFile := by
  have hnil : before ++ [name] ≠ [] := by simp
  have hpath' : path.toList.splitOn '/' = (before ++ [name]) ++ rest := by rw [hpath]; simp
  have hnames := no_slash_of_splitOn hpath'
  by_cases hfollow : Followable (textOf (before ++ [name]))
  · rw [find_of_followable hfollow, startOf_textOf fs hpath' hnil htext, namesOf_textOf hnil hnames,
      List.map_append, hlead.walk_append]
    exact walk_singleton_ne fs key _
  · intro hfind
    rw [find] at hfind
    have hsome : ¬(textOf (before ++ [name])).toList.isEmpty = true := by
      rw [List.isEmpty_iff, String.toList_eq_nil_iff]
      exact htext
    rw [if_neg hsome] at hfind
    split at hfind
    · cases hfind
    · split at hfind
      · cases hfind
      · rename_i hzero hsize
        refine hfollow ⟨Bool.eq_false_iff.mpr hzero, fun he => hsome ?_, Nat.not_le.mp hsize⟩
        exact List.isEmpty_iff.mpr he

theorem leads_textOf {path : String} {names rest : List (List Char)}
    (hpath : path.toList.splitOn '/' = names ++ rest) (hnil : names ≠ []) (htext : textOf names ≠ "")
    (hfind : fs.find (textOf names) = .ok (key, some .folder)) :
    fs.Leads (fs.startOf path) (names.map String.ofList) key (some .folder) := by
  have hnames := no_slash_of_splitOn hpath
  have hlead := leads_of_find hfind
  rwa [startOf_textOf fs hpath hnil htext, namesOf_textOf hnil hnames] at hlead

/-- Only the first of the names may be missing from a text without characters, in front of a slash. -/
theorem leads_textOf_empty {path : String} {before rest : List (List Char)} {name : List Char}
    (hpath : path.toList.splitOn '/' = (before ++ [name]) ++ rest) (htext : textOf (before ++ [name]) = "")
    (place : PathKey) :
    fs.Leads place ((before ++ [name]).map String.ofList) place (some .folder) := by
  have hnames := no_slash_of_splitOn hpath
  have hsplit := List.splitOn_intercalate '/' hnames (by simp)
  rw [String.ofList_eq_empty_iff.mp htext, List.splitOn_nil] at hsplit
  rw [← hsplit]
  exact leads_blank rfl place

theorem isOk_makeFolders_of_refused {path : String}
    (hfolder : ∀ key, fs.find path ≠ .ok (key, some .folder))
    (hfree : ∀ key, fs.find path ≠ .ok (key, none)) (rest : List String) :
    (fs.makeFolders (path :: rest)).2.isOk = false := by
  cases hfind : fs.find path with
  | error p =>
    rw [makeFolders, hfind]
    rfl
  | ok found =>
    obtain ⟨key, node⟩ := found
    cases node with
    | none => exact absurd hfind (hfree key)
    | some node =>
      cases node with
      | folder => exact absurd hfind (hfolder key)
      | file => rw [makeFolders, hfind]; rfl
      | archive => rw [makeFolders, hfind]; rfl

/-- Folders of a path, below those that are there already, can be made in both trees or in none. -/
theorem Grown.makeFolders_textsAfter (h : Grown fs fs') {path : String}
    {before rest : List (List Char)} (hpath : path.toList.splitOn '/' = before ++ rest)
    (hlead : fs.Leads (fs.startOf path) (before.map String.ofList) key (some .folder)) :
    (fs'.makeFolders ((textsAfter before rest).filter (· != ""))).2.isOk
        = (fs.makeFolders ((textsAfter before rest).filter (· != ""))).2.isOk
      ∧ ((fs.makeFolders ((textsAfter before rest).filter (· != ""))).2.isOk = true →
        Grown (fs.makeFolders ((textsAfter before rest).filter (· != ""))).1
          (fs'.makeFolders ((textsAfter before rest).filter (· != ""))).1) := by
  induction rest generalizing before fs fs' key with
  | nil => exact ⟨rfl, fun _ => h⟩
  | cons name rest ih =>
    have hnil : before ++ [name] ≠ [] := by simp
    have hpath' : path.toList.splitOn '/' = (before ++ [name]) ++ rest := by rw [hpath]; simp
    rw [textsAfter]
    by_cases htext : textOf (before ++ [name]) = ""
    · rw [List.filter_cons_of_neg (by simp [htext])]
      exact ih h hpath' (leads_textOf_empty hpath' htext _)
    rw [List.filter_cons_of_pos (by simp [htext])]
    have hput {k : PathKey} (hk : fs.find (textOf (before ++ [name])) = .ok (k, none)) :
        (fs.put k .folder).Leads ((fs.put k .folder).startOf path)
          ((before ++ [name]).map String.ofList) k (some .folder) :=
      leads_textOf hpath' hnil htext (find_put_folder hk)
    rcases h.find (textOf (before ++ [name])) with heq | hmissing | ⟨k, hfree, hfolder, hthere⟩
    · by_cases hfolder : ∃ k, fs.find (textOf (before ++ [name])) = .ok (k, some .folder)
      · obtain ⟨k, hk⟩ := hfolder
        rw [makeFolders_of_folder hk, makeFolders_of_folder (heq.trans hk)]
        exact ih h hpath' (leads_textOf hpath' hnil htext hk)
      by_cases hfree : ∃ k, fs.find (textOf (before ++ [name])) = .ok (k, none)
      · obtain ⟨k, hk⟩ := hfree
        rw [makeFolders_of_free hk, makeFolders_of_free (heq.trans hk)]
        exact ih (h.put (ne_nil_of_free (free_of_find hk))) hpath' (hput hk)
      · have hfolder' := not_exists.mp hfolder
        have hfree' := not_exists.mp hfree
        have hrefused := isOk_makeFolders_of_refused hfolder' hfree'
          ((textsAfter (before ++ [name]) rest).filter (· != ""))
        rw [← heq] at hfolder' hfree'
        rw [hrefused, isOk_makeFolders_of_refused hfolder' hfree']
        exact ⟨rfl, fun hok => absurd hok Bool.false_ne_true⟩
    · exact absurd hmissing (find_textOf_ne fs hpath hlead htext)
    · rw [makeFolders_of_free hfree, makeFolders_of_folder hfolder]
      exact ih (h.put_left (ne_nil_of_free (free_of_find hfree)) hthere) hpath' (hput hfree)

/-- A folder can be made in both trees or in none. -/
theorem Grown.isOk_mkdirAll (h : Grown fs fs') (path : String) :
    (fs'.mkdirAll path).2.isOk = (fs.mkdirAll path).2.isOk
      ∧ ((fs.mkdirAll path).2.isOk = true → Grown (fs.mkdirAll path).1 (fs'.mkdirAll path).1) := by
  rw [Files.mkdirAll, Files.mkdirAll, pathTexts_eq]
  have hstart : fs.Leads (fs.startOf path) (List.map String.ofList []) (fs.startOf path)
      (some .folder) := .done _
  exact h.makeFolders_textsAfter rfl hstart

end BlockWorld.Save.Files
