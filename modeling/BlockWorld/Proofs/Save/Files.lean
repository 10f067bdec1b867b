import BlockWorld.Save.ArchiveFile
/-!
The tree of files under changes. What a path leads to depends on the nodes and on the current folder
(`find_congr`). A change that keeps the folders keeps every way through them, so that a path goes on
leading to the same folder (`KeepsFolders.find_folder`) or to the same place (`KeepsFolders.find_place`).
Making folders adds nothing but folders, and making them again changes nothing (`mkdirAll_mkdirAll`). A
temporary file is made where nothing was, so that removing it gives back the tree before it.

How the proof goes. Following a path is a recursion on its names. `Leads` is the same as a relation, with a
rule for each kind of name, and inductions go over it: what is said of a way is said of its first step and of
the rest. Three kinds of ends are told apart, a folder, something else than a folder, and a free place, and
for each there is a lemma that changes which keep the folders keep the end (`KeepsFolders.leads_folder`,
`KeepsFolders.leads_place`, `KeepsFolders.leads_free`). Making folders goes through the paths above a folder,
and each is there, is made, or stops the rest (`makeFolders_cons`). The second time all of them are there
(`makeFolders_makeFolders`).
-/
namespace BlockWorld.Save.Files

variable {fs fs' : Files} {key : PathKey} {node : Node}

/-! ## Nodes -/

theorem ne_nil_of_not_folder (h : fs.node? key ≠ some .folder) : key ≠ [] := by
  rintro rfl
  exact h (if_pos rfl)

theorem ne_nil_of_free (h : fs.node? key = none) : key ≠ [] := by
  rintro rfl
  cases h

theorem lookup_filter_ne {κ α : Type} [BEq κ] [LawfulBEq κ] [DecidableEq κ] (pairs : List (κ × α))
    (key k : κ) :
    (pairs.filter (·.1 != key)).lookup k = if k = key then none else pairs.lookup k := by
  induction pairs with
  | nil => rw [List.filter_nil, List.lookup_nil, ite_self]
  | cons p pairs ih =>
    obtain ⟨place, value⟩ := p
    by_cases hplace : place = key
    · rw [List.filter_cons_of_neg (by simp [hplace]), ih, List.lookup_cons, hplace]
      by_cases hk : k = key
      · rw [if_pos hk, if_pos hk]
      · rw [if_neg hk, if_neg hk, beq_eq_false_iff_ne.mpr hk]
    · rw [List.filter_cons_of_pos (by simp [hplace]), List.lookup_cons, List.lookup_cons, ih]
      by_cases hk : k = place
      · have hne : k ≠ key := fun he => hplace (hk.symm.trans he)
        rw [if_neg hne, if_neg hne, beq_iff_eq.mpr hk]
      · rw [beq_eq_false_iff_ne.mpr hk]

theorem node?_put (hkey : key ≠ []) (node : Node) (k : PathKey) :
    (fs.put key node).node? k = if k = key then some node else fs.node? k := by
  by_cases hk : k = key
  · rw [if_pos hk, hk, node?, if_neg hkey, put, List.lookup_cons_self]
  · rw [if_neg hk, node?, node?, put, List.lookup_cons, beq_eq_false_iff_ne.mpr hk]
    dsimp only
    rw [lookup_filter_ne, if_neg hk]

theorem node?_put_self (fs : Files) (hkey : key ≠ []) (node : Node) :
    (fs.put key node).node? key = some node := by
  rw [node?_put hkey, if_pos rfl]

theorem node?_remove (hkey : key ≠ []) (k : PathKey) :
    (fs.remove key).node? k = if k = key then none else fs.node? k := by
  rw [node?, node?, remove, lookup_filter_ne]
  by_cases hk : k = key
  · rw [if_neg (hk ▸ hkey), if_pos hk, if_pos hk]
  · rw [if_neg hk, if_neg hk]

theorem filter_of_free (h : fs.node? key = none) : fs.nodes.filter (·.1 != key) = fs.nodes := by
  have hkey : key ≠ [] := ne_nil_of_free h
  rw [node?, if_neg hkey, List.lookup_eq_none_iff] at h
  refine List.filter_eq_self.mpr fun p hp => bne_iff_ne.mpr fun he => ?_
  exact absurd he.symm (bne_iff_ne.mp (h p hp))

/-- What was put where nothing was can be taken away without a trace. -/
theorem remove_put_of_free (h : fs.node? key = none) (node : Node) :
    (fs.put key node).remove key = fs := by
  rw [remove, put]
  dsimp only
  rw [List.filter_cons_of_neg (by simp), List.filter_filter]
  simp only [Bool.and_self]
  rw [filter_of_free h]

/-- The tree with another count of temporary files. -/
def numbered (fs : Files) (n : Nat) : Files := { fs with serial := n }

theorem numbered_serial (fs : Files) : fs.numbered fs.serial = fs := rfl

theorem numbered_numbered (fs : Files) (m n : Nat) : (fs.numbered m).numbered n = fs.numbered n := rfl

/-! ## Following paths -/

/-- The names of a path. -/
def namesOf (path : String) : List String := (path.toList.splitOn '/').map String.ofList

/-- Where following a path starts. -/
def startOf (fs : Files) (path : String) : PathKey :=
  if path.toList.head? = some '/' then [] else fs.here

/-- Whether a path can be followed at all. -/
def Followable (path : String) : Prop :=
  path.toList.contains (Char.ofNat 0) = false ∧ path.toList ≠ [] ∧ path.utf8ByteSize < pathLimit

/-- Only a text that ends in a slash has no name behind the last one. -/
theorem slash_suffix_of_getLast? {cs : List Char} (hsome : cs ≠ [])
    (h : (cs.splitOn '/').getLast? = some []) : ['/'] <:+ cs := by
  induction cs with
  | nil => exact absurd rfl hsome
  | cons c cs ih =>
    rw [List.splitOn_cons_eq_if_modifyHead] at h
    obtain ⟨first, rest, hpieces⟩ := List.exists_cons_of_ne_nil (List.splitOn_ne_nil '/' cs)
    rw [hpieces] at h
    by_cases hc : (c == '/') = true
    · rw [if_pos hc, List.getLast?_cons_cons, ← hpieces] at h
      by_cases hcs : cs = []
      · exact ⟨[], by simp [hcs, eq_of_beq hc]⟩
      · exact (ih hcs h).trans (List.suffix_cons c cs)
    · rw [if_neg hc, List.modifyHead_cons] at h
      cases rest with
      | nil => cases h
      | cons second rest =>
        rw [List.getLast?_cons_cons, ← List.getLast?_cons_cons, ← hpieces] at h
        have hcs : cs ≠ [] := by
          rintro rfl
          cases hpieces
        exact (ih hcs h).trans (List.suffix_cons c cs)

theorem getLast?_namesOf {path : String} (hsome : path.toList ≠ []) (h : path.endsWith "/" = false) :
    (namesOf path).getLast? ≠ some "" := by
  intro hlast
  have hslice : path.toSlice.endsWith "/" = false := h
  rw [String.Slice.endsWith_string_eq_false_iff, String.copy_toSlice] at hslice
  rw [namesOf, List.getLast?_map, Option.map_eq_some_iff] at hlast
  obtain ⟨last, hlast, hempty⟩ := hlast
  rw [String.ofList_eq_empty_iff.mp hempty] at hlast
  exact hslice (slash_suffix_of_getLast? hsome hlast)

theorem find_of_followable {path : String} (h : Followable path) :
    fs.find path = fs.walk (fs.startOf path) (namesOf path) := by
  obtain ⟨hzero, hsome, hsize⟩ := h
  unfold find
  rw [if_neg (by rw [hzero]; exact Bool.false_ne_true),
    if_neg (fun he => hsome (List.isEmpty_iff.mp he)), if_neg (Nat.not_le.mpr hsize)]
  rfl

theorem followable_of_find {path : String} {found : PathKey × Option Node}
    (h : fs.find path = .ok found) : Followable path := by
  unfold find at h
  by_cases hzero : path.toList.contains (Char.ofNat 0) = true
  · rw [if_pos hzero] at h
    cases h
  by_cases hsome : path.toList.isEmpty = true
  · rw [if_neg hzero, if_pos hsome] at h
    cases h
  by_cases hsize : pathLimit ≤ path.utf8ByteSize
  · rw [if_neg hzero, if_neg hsome, if_pos hsize] at h
    cases h
  exact ⟨Bool.eq_false_iff.mpr hzero, fun he => hsome (List.isEmpty_iff.mpr he),
    Nat.not_le.mp hsize⟩

/-- A path that cannot be followed is refused in every tree alike. -/
theorem find_of_not_followable {path : String} (h : ¬Followable path) (fs fs' : Files) :
    fs'.find path = fs.find path := by
  rw [find, find]
  split
  · rfl
  · split
    · rfl
    · split
      · rfl
      · rename_i hzero hsome hsize
        refine absurd ⟨Bool.eq_false_iff.mpr hzero, fun he => hsome ?_, Nat.not_le.mp hsize⟩ h
        exact List.isEmpty_iff.mpr he

theorem walk_of_find {path : String} {found : PathKey × Option Node}
    (h : fs.find path = .ok found) : fs.walk (fs.startOf path) (namesOf path) = .ok found :=
  (find_of_followable (followable_of_find h)).symm.trans h

/-- A name that is followed downwards. -/
def ProperName (name : String) : Prop :=
  ¬(name = "" ∨ name = ".") ∧ name ≠ ".." ∧ ¬nameLimit < name.utf8ByteSize

section Walk

variable {place : PathKey} {name : String} {rest : List String}

theorem walk_of_none (hname : ProperName name) (h : fs.node? (place ++ [name]) = none) :
    fs.walk place (name :: rest)
      = if rest.all (· == "") then .ok (place ++ [name], none) else .error .noSuchFile := by
  rw [walk, if_neg hname.1, if_neg hname.2.1, if_neg hname.2.2]
  simp only [h]

theorem walk_of_folder (hname : ProperName name) (h : fs.node? (place ++ [name]) = some .folder) :
    fs.walk place (name :: rest) = fs.walk (place ++ [name]) rest := by
  rw [walk, if_neg hname.1, if_neg hname.2.1, if_neg hname.2.2]
  simp only [h]

theorem walk_of_file (hname : ProperName name) (h : fs.node? (place ++ [name]) = some node)
    (hfile : node ≠ .folder) :
    fs.walk place (name :: rest)
      = if rest.isEmpty then .ok (place ++ [name], some node) else .error .notDirectory := by
  rw [walk, if_neg hname.1, if_neg hname.2.1, if_neg hname.2.2]
  cases node with
  | folder => exact absurd rfl hfile
  | file data => simp only [h]
  | archive entries => simp only [h]

end Walk

/-- The ways through the tree: where names lead from a place, and what stands there. -/
inductive Leads (fs : Files) : PathKey → List String → PathKey → Option Node → Prop where
  | done (place : PathKey) : Leads fs place [] place (some .folder)
  | stay {place : PathKey} {name : String} {rest : List String} {key : PathKey}
      {found : Option Node} (hname : name = "" ∨ name = ".") (h : Leads fs place rest key found) :
      Leads fs place (name :: rest) key found
  | up {place : PathKey} {rest : List String} {key : PathKey} {found : Option Node}
      (h : Leads fs place.dropLast rest key found) : Leads fs place (".." :: rest) key found
  | down {place : PathKey} {name : String} {rest : List String} {key : PathKey}
      {found : Option Node} (hname : ProperName name)
      (hfolder : fs.node? (place ++ [name]) = some .folder)
      (h : Leads fs (place ++ [name]) rest key found) : Leads fs place (name :: rest) key found
  | free {place : PathKey} {name : String} {rest : List String} (hname : ProperName name)
      (hnone : fs.node? (place ++ [name]) = none) (hrest : rest.all (· == "") = true) :
      Leads fs place (name :: rest) (place ++ [name]) none
  | file {place : PathKey} {name : String} {node : Node} (hname : ProperName name)
      (hnode : fs.node? (place ++ [name]) = some node) (hfile : node ≠ .folder) :
      Leads fs place [name] (place ++ [name]) (some node)

theorem Leads.walk {place : PathKey} {names : List String} {found : Option Node}
    (h : fs.Leads place names key found) : fs.walk place names = .ok (key, found) := by
  induction h with
  | done place => rfl
  | stay hname _ ih => rw [Files.walk, if_pos hname, ih]
  | up _ ih => rw [Files.walk, if_neg (by decide), if_pos rfl, ih]
  | down hname hfolder _ ih => rw [walk_of_folder hname hfolder, ih]
  | free hname hnone hrest => rw [walk_of_none hname hnone, if_pos hrest]
  | file hname hnode hfile => rw [walk_of_file hname hnode hfile, if_pos List.isEmpty_nil]

theorem leads_of_walk {place : PathKey} {names : List String} {found : Option Node}
    (h : fs.walk place names = .ok (key, found)) : fs.Leads place names key found := by
  induction names generalizing place with
  | nil =>
    cases h
    exact .done _
  | cons name rest ih =>
    by_cases hstay : name = "" ∨ name = "."
    · rw [walk, if_pos hstay] at h
      exact .stay hstay (ih h)
    by_cases hup : name = ".."
    · rw [walk, if_neg hstay, if_pos hup] at h
      exact hup ▸ .up (ih h)
    by_cases hsize : nameLimit < name.utf8ByteSize
    · rw [walk, if_neg hstay, if_neg hup, if_pos hsize] at h
      cases h
    have hname : ProperName name := ⟨hstay, hup, hsize⟩
    cases hnode : fs.node? (place ++ [name]) with
    | none =>
      rw [walk_of_none hname hnode] at h
      split at h
      · rename_i hrest
        cases h
        exact .free hname hnode hrest
      · cases h
    | some node =>
      by_cases hfolder : node = .folder
      · subst hfolder
        rw [walk_of_folder hname hnode] at h
        exact .down hname hnode (ih h)
      · rw [walk_of_file hname hnode hfolder] at h
        split at h
        · rename_i hrest
          cases h
          rw [List.isEmpty_iff.mp hrest]
          exact .file hname hnode hfolder
        · cases h

theorem leads_of_find {path : String} {found : Option Node} (h : fs.find path = .ok (key, found)) :
    fs.Leads (fs.startOf path) (namesOf path) key found :=
  leads_of_walk (walk_of_find h)

theorem walk_congr (h : ∀ key, fs'.node? key = fs.node? key) (place : PathKey)
    (names : List String) : fs'.walk place names = fs.walk place names := by
  induction names generalizing place with
  | nil => rfl
  | cons name rest ih => simp only [walk, ih, h]

theorem find_congr (hnode : ∀ key, fs'.node? key = fs.node? key) (hhere : fs'.here = fs.here)
    (path : String) : fs'.find path = fs.find path := by
  simp only [find, walk_congr hnode, hhere]

theorem find_numbered (fs : Files) (n : Nat) (path : String) :
    (fs.numbered n).find path = fs.find path :=
  have hnode : ∀ key, (fs.numbered n).node? key = fs.node? key := fun _ => rfl
  find_congr hnode rfl path

theorem stat_numbered (fs : Files) (n : Nat) (path : String) :
    (fs.numbered n).stat path = fs.stat path := by
  rw [stat, stat, find_numbered]

/-- What is found at the end of a way stands there, but for the folder that a way may start from. -/
theorem Leads.node?_eq {place : PathKey} {names : List String} {found : Option Node}
    (h : fs.Leads place names key found) (hfound : found ≠ some .folder) : fs.node? key = found := by
  induction h with
  | done => exact absurd rfl hfound
  | stay _ _ ih => exact ih hfound
  | up _ ih => exact ih hfound
  | down _ _ _ ih => exact ih hfound
  | free _ hnone _ => exact hnone
  | file _ hnode _ => exact hnode

theorem node?_of_find {path : String} {found : Option Node}
    (h : fs.find path = .ok (key, found)) (hfound : found ≠ some .folder) : fs.node? key = found :=
  (leads_of_find h).node?_eq hfound

theorem free_of_find {path : String} (h : fs.find path = .ok (key, none)) : fs.node? key = none :=
  node?_of_find h (by simp)

/-! ## Changes that keep the folders -/

/-- A tree after changes that keep all folders of the one before. -/
structure KeepsFolders (fs fs' : Files) : Prop where
  here : fs'.here = fs.here
  folder : ∀ {key}, fs.node? key = some .folder → fs'.node? key = some .folder

namespace KeepsFolders

theorem refl (fs : Files) : KeepsFolders fs fs := ⟨rfl, id⟩

theorem numbered (fs : Files) (n : Nat) : KeepsFolders fs (fs.numbered n) := ⟨rfl, id⟩

theorem trans {fs₁ fs₂ fs₃ : Files} (h : KeepsFolders fs₁ fs₂) (h' : KeepsFolders fs₂ fs₃) :
    KeepsFolders fs₁ fs₃ :=
  ⟨h'.here.trans h.here, fun hf => h'.folder (h.folder hf)⟩

theorem put (h : fs.node? key ≠ some .folder) (node : Node) : KeepsFolders fs (fs.put key node) := by
  refine ⟨rfl, fun {k} hk => ?_⟩
  have hne : k ≠ key := fun he => h (he ▸ hk)
  rw [node?_put (ne_nil_of_not_folder h), if_neg hne, hk]

theorem put_of_free (h : fs.node? key = none) (node : Node) : KeepsFolders fs (fs.put key node) :=
  .put (by simp [h]) node

theorem remove (h : fs.node? key ≠ some .folder) : KeepsFolders fs (fs.remove key) := by
  refine ⟨rfl, fun {k} hk => ?_⟩
  have hne : k ≠ key := fun he => h (he ▸ hk)
  rw [node?_remove (ne_nil_of_not_folder h), if_neg hne, hk]

theorem startOf (h : KeepsFolders fs fs') (path : String) : fs'.startOf path = fs.startOf path := by
  rw [Files.startOf, Files.startOf, h.here]

theorem leads_folder (h : KeepsFolders fs fs') {place : PathKey} {names : List String}
    (hl : fs.Leads place names key (some .folder)) : fs'.Leads place names key (some .folder) := by
  generalize hfound : some Node.folder = found at hl
  induction hl with
  | done place =>
    cases hfound
    exact .done place
  | stay hname _ ih => exact .stay hname (ih hfound)
  | up _ ih => exact .up (ih hfound)
  | down hname hfolder _ ih => exact .down hname (h.folder hfolder) (ih hfound)
  | free => cases hfound
  | file _ _ hfile => exact absurd (Option.some.inj hfound).symm hfile

/-- A path that leads to a folder goes on leading there. -/
theorem find_folder (h : KeepsFolders fs fs') {path : String}
    (hf : fs.find path = .ok (key, some .folder)) : fs'.find path = .ok (key, some .folder) := by
  rw [find_of_followable (followable_of_find hf), h.startOf]
  exact (h.leads_folder (leads_of_find hf)).walk

theorem leads_place (h : KeepsFolders fs fs') {place : PathKey} {names : List String}
    {found : Option Node} (hl : fs.Leads place names key found) (hfound : found ≠ some .folder)
    (hend : found = none → names.getLast? ≠ some "") (hnode : fs'.node? key = some node)
    (hfile : node ≠ .folder) : fs'.Leads place names key (some node) := by
  induction hl with
  | done => exact absurd rfl hfound
  | stay hname hl ih =>
    refine .stay hname (ih hfound (fun hnone he => hend hnone ?_) hnode)
    rw [List.getLast?_cons, he, Option.getD_some]
  | up hl ih =>
    refine .up (ih hfound (fun hnone he => hend hnone ?_) hnode)
    rw [List.getLast?_cons, he, Option.getD_some]
  | down hname hfolder hl ih =>
    refine .down hname (h.folder hfolder) (ih hfound (fun hnone he => hend hnone ?_) hnode)
    rw [List.getLast?_cons, he, Option.getD_some]
  | @free place name rest hname hnone hrest =>
    -- Behind the last name only slashes may follow, and here none does.
    obtain rfl : rest = [] := by
      refine List.getLast?_eq_none_iff.mp (Option.eq_none_iff_forall_ne_some.mpr fun last he => ?_)
      have hempty : last = "" :=
        eq_of_beq (List.all_eq_true.mp hrest last (List.mem_of_getLast? he))
      refine hend rfl ?_
      rw [List.getLast?_cons, he, Option.getD_some, hempty]
    exact .file hname hnode hfile
  | file hname _ _ => exact .file hname hnode hfile

/-- A path that leads to something else than a folder, or to a free place, goes on leading there, and
finds what stands there now. -/
theorem find_place (h : KeepsFolders fs fs') {path : String} {found : Option Node}
    (hf : fs.find path = .ok (key, found)) (hfound : found ≠ some .folder)
    (hend : found = none → path.endsWith "/" = false) (hnode : fs'.node? key = some node)
    (hfile : node ≠ .folder) : fs'.find path = .ok (key, some node) := by
  have hfollow := followable_of_find hf
  rw [find_of_followable hfollow, h.startOf]
  refine (h.leads_place (leads_of_find hf) hfound (fun hnone => ?_) hnode hfile).walk
  exact getLast?_namesOf hfollow.2.1 (hend hnone)

theorem leads_free (h : KeepsFolders fs fs') {place : PathKey} {names : List String} {found : Option Node}
    (hl : fs.Leads place names key found) (hfree : found = none) (hnode : fs'.node? key = none) :
    fs'.Leads place names key none := by
  induction hl with
  | done => cases hfree
  | stay hname _ ih => exact .stay hname (ih hfree hnode)
  | up _ ih => exact .up (ih hfree hnode)
  | down hname hfolder _ ih => exact .down hname (h.folder hfolder) (ih hfree hnode)
  | free hname _ hrest => exact .free hname hnode hrest
  | file => cases hfree

/-- A path that leads to a free place goes on leading there, if it is still free. -/
theorem find_free (h : KeepsFolders fs fs') {path : String} (hf : fs.find path = .ok (key, none))
    (hnode : fs'.node? key = none) : fs'.find path = .ok (key, none) := by
  rw [find_of_followable (followable_of_find hf), h.startOf]
  exact (h.leads_free (leads_of_find hf) rfl hnode).walk

/-- A path that leads to an archive goes on leading there, if archives are kept as well. -/
theorem stat_archive (h : KeepsFolders fs fs') {path : String} {e : Entries}
    (harchives : ∀ {key e}, fs.node? key = some (.archive e) → fs'.node? key = some (.archive e))
    (hstat : fs.stat path = .ok (.archive e)) : fs'.stat path = .ok (.archive e) := by
  rw [stat] at hstat
  split at hstat
  · cases hstat
  · rename_i key found hfind
    cases hstat
    have hnode := node?_of_find hfind (by simp)
    rw [stat, h.find_place hfind (by simp) (by simp) (harchives hnode) (by simp)]
  · cases hstat

end KeepsFolders

/-! ## Making folders -/

theorem leads_blank {names : List String} (h : names.all (· == "") = true) (place : PathKey) :
    fs.Leads place names place (some .folder) := by
  induction names with
  | nil => exact .done place
  | cons name rest ih =>
    obtain ⟨hname, hrest⟩ := Bool.and_eq_true_iff.mp (List.all_cons.symm.trans h)
    exact .stay (.inl (eq_of_beq hname)) (ih hrest)

theorem KeepsFolders.leads_made (h : KeepsFolders fs fs') {place : PathKey} {names : List String}
    {found : Option Node} (hl : fs.Leads place names key found) (hfree : found = none)
    (hmade : fs'.node? key = some .folder) : fs'.Leads place names key (some .folder) := by
  induction hl with
  | done => cases hfree
  | stay hname _ ih => exact .stay hname (ih hfree hmade)
  | up _ ih => exact .up (ih hfree hmade)
  | down hname hfolder _ ih => exact .down hname (h.folder hfolder) (ih hfree hmade)
  | free hname _ hrest => exact .down hname hmade (leads_blank hrest _)
  | file => cases hfree

theorem find_put_folder {path : String} (h : fs.find path = .ok (key, none)) :
    (fs.put key .folder).find path = .ok (key, some .folder) := by
  have hfree := free_of_find h
  have hmade := fs.node?_put_self (ne_nil_of_free hfree) .folder
  rw [find_of_followable (followable_of_find h)]
  exact ((KeepsFolders.put_of_free hfree _).leads_made (leads_of_find h) rfl hmade).walk

/-- Something else than a folder, put where a path leads and nothing is. -/
theorem find_put_file {path : String} (h : fs.find path = .ok (key, none))
    (hend : path.endsWith "/" = false) (hfile : node ≠ .folder) :
    (fs.put key node).find path = .ok (key, some node) := by
  have hfree := free_of_find h
  have hmade := fs.node?_put_self (ne_nil_of_free hfree) node
  exact (KeepsFolders.put_of_free hfree node).find_place h (by simp) (fun _ => hend) hmade hfile

theorem makeFolders_of_folder {path : String} (h : fs.find path = .ok (key, some .folder))
    (rest : List String) : fs.makeFolders (path :: rest) = fs.makeFolders rest := by
  rw [makeFolders, h]
  rfl

theorem makeFolders_of_free {path : String} (h : fs.find path = .ok (key, none))
    (rest : List String) :
    fs.makeFolders (path :: rest) = (fs.put key .folder).makeFolders rest := by
  rw [makeFolders, h]

/-- What the next folder of some does: it is there, it is made, or it stops the others. -/
theorem makeFolders_cons (fs : Files) (path : String) (rest : List String) :
    (∃ key, fs.find path = .ok (key, some .folder))
      ∨ (∃ key, fs.find path = .ok (key, none))
      ∨ ∃ e, fs.makeFolders (path :: rest) = (fs, .error e) := by
  cases h : fs.find path with
  | error p => exact .inr (.inr ⟨_, by rw [makeFolders, h]⟩)
  | ok found =>
    obtain ⟨key, node⟩ := found
    cases node with
    | none => exact .inr (.inl ⟨key, rfl⟩)
    | some node =>
      cases node with
      | folder => exact .inl ⟨key, rfl⟩
      | file => exact .inr (.inr ⟨_, by rw [makeFolders, h]; rfl⟩)
      | archive => exact .inr (.inr ⟨_, by rw [makeFolders, h]; rfl⟩)

theorem keepsFolders_makeFolders (fs : Files) (paths : List String) :
    KeepsFolders fs (fs.makeFolders paths).1 := by
  induction paths generalizing fs with
  | nil => exact .refl fs
  | cons path rest ih =>
    obtain ⟨key, h⟩ | ⟨key, h⟩ | ⟨e, h⟩ := fs.makeFolders_cons path rest
    · rw [makeFolders_of_folder h]
      exact ih fs
    · rw [makeFolders_of_free h]
      exact .trans (.put_of_free (free_of_find h) _) (ih _)
    · rw [h]
      exact .refl fs

/-- Folders that were made are there, and one that could not be made still cannot. -/
theorem makeFolders_makeFolders (fs : Files) (paths : List String) :
    (fs.makeFolders paths).1.makeFolders paths = fs.makeFolders paths := by
  induction paths generalizing fs with
  | nil => rfl
  | cons path rest ih =>
    obtain ⟨key, h⟩ | ⟨key, h⟩ | ⟨e, h⟩ := fs.makeFolders_cons path rest
    · rw [makeFolders_of_folder h]
      rw [makeFolders_of_folder ((keepsFolders_makeFolders fs rest).find_folder h), ih]
    · rw [makeFolders_of_free h]
      have hkept := (keepsFolders_makeFolders _ rest).find_folder (find_put_folder h)
      rw [makeFolders_of_folder hkept, ih]
    · rw [h]
      exact h

theorem mkdirAll_mkdirAll (fs : Files) (path : String) :
    (fs.mkdirAll path).1.mkdirAll path = fs.mkdirAll path :=
  fs.makeFolders_makeFolders (pathTexts path)

/-- Folders that are all there. -/
def HasFolders (fs : Files) (paths : List String) : Prop :=
  ∀ path ∈ paths, ∃ key, fs.find path = .ok (key, some .folder)

theorem HasFolders.kept {paths : List String} (h : fs.HasFolders paths)
    (hkeeps : KeepsFolders fs fs') : fs'.HasFolders paths := by
  intro path hpath
  obtain ⟨key, hfind⟩ := h path hpath
  exact ⟨key, hkeeps.find_folder hfind⟩

theorem HasFolders.makeFolders {paths : List String} (h : fs.HasFolders paths) :
    fs.makeFolders paths = (fs, .ok ()) := by
  induction paths with
  | nil => rfl
  | cons path rest ih =>
    obtain ⟨key, hfind⟩ := h path List.mem_cons_self
    rw [makeFolders_of_folder hfind, ih fun p hp => h p (List.mem_cons_of_mem path hp)]

theorem hasFolders_makeFolders {paths : List String} (h : (fs.makeFolders paths).2 = .ok ()) :
    (fs.makeFolders paths).1.HasFolders paths := by
  induction paths generalizing fs with
  | nil => simp [HasFolders]
  | cons path rest ih =>
    intro p hp
    obtain ⟨key, hfind⟩ | ⟨key, hfind⟩ | ⟨e, herror⟩ := fs.makeFolders_cons path rest
    · rw [makeFolders_of_folder hfind] at h ⊢
      rcases List.mem_cons.mp hp with rfl | hp
      · exact ⟨key, (keepsFolders_makeFolders fs rest).find_folder hfind⟩
      · exact ih h p hp
    · rw [makeFolders_of_free hfind] at h ⊢
      rcases List.mem_cons.mp hp with rfl | hp
      · exact ⟨key, (keepsFolders_makeFolders _ rest).find_folder (find_put_folder hfind)⟩
      · exact ih h p hp
    · rw [herror] at h
      cases h

theorem makeFolders_numbered (fs : Files) (n : Nat) (paths : List String) :
    (fs.numbered n).makeFolders paths
      = ((fs.makeFolders paths).1.numbered n, (fs.makeFolders paths).2) := by
  induction paths generalizing fs with
  | nil => rfl
  | cons path rest ih =>
    rw [makeFolders, makeFolders, find_numbered]
    split
    · split
      · exact ih fs
      · rfl
    · rename_i key _
      exact ih (fs.put key .folder)
    · rfl

theorem mkdirAll_numbered (fs : Files) (n : Nat) (path : String) :
    (fs.numbered n).mkdirAll path = ((fs.mkdirAll path).1.numbered n, (fs.mkdirAll path).2) :=
  fs.makeFolders_numbered n (pathTexts path)

/-! ## Files -/

theorem taken_of_freeNumber {folder stem : String} {tries n m : Nat}
    (h : fs.freeNumber folder stem tries n = some m) :
    fs.taken (tempPath folder stem (toString m)) = false := by
  induction tries generalizing n with
  | zero => cases h
  | succ tries ih =>
    rw [freeNumber] at h
    split at h
    · exact ih h
    · rename_i hfree
      cases h
      exact Bool.eq_false_iff.mpr hfree

theorem writeFile_of_not_taken {path : String} {data : ByteArray} (h : fs.taken path = false)
    (hok : fs.writeFile path data = .ok fs') :
    ∃ key, fs.find path = .ok (key, none) ∧ path.endsWith "/" = false
      ∧ fs' = fs.put key (.file data) := by
  rw [taken] at h
  rw [writeFile] at hok
  cases hfind : fs.find path with
  | error p =>
    rw [hfind] at hok
    cases hok
  | ok found =>
    obtain ⟨key, node⟩ := found
    rw [hfind] at h hok
    cases node with
    | some node => cases h
    | none =>
      refine ⟨key, rfl, ?_⟩
      dsimp only at hok
      split at hok
      · cases hok
      · rename_i hend
        cases hok
        exact ⟨Bool.eq_false_iff.mpr hend, rfl⟩

/-- A temporary file is made where nothing was. -/
theorem createTemp_ok {folder stem temp : String} (h : fs.createTemp folder stem = .ok (temp, fs')) :
    ∃ n key, fs.find temp = .ok (key, none) ∧ temp.endsWith "/" = false
      ∧ fs' = (fs.numbered n).put key (.file .empty) := by
  rw [createTemp] at h
  split at h
  · cases h
  · rename_i n hn
    dsimp only at h
    refine ⟨fs.serial + 1, ?_⟩
    -- Counting the file changes no way through the tree, so its name is still free.
    have htaken : (fs.numbered (fs.serial + 1)).taken (tempPath folder stem (toString n)) = false := by
      rw [taken, find_numbered]
      exact taken_of_freeNumber hn
    cases hwrite : (fs.numbered (fs.serial + 1)).writeFile
        (tempPath folder stem (toString n)) .empty with
    | error e =>
      rw [numbered] at hwrite
      rw [hwrite] at h
      cases h
    | ok made =>
      obtain ⟨key, hfind, hend, hmade⟩ := writeFile_of_not_taken htaken hwrite
      rw [numbered] at hwrite
      rw [hwrite] at h
      cases h
      exact ⟨key, (find_numbered ..).symm.trans hfind, hend, hmade⟩

theorem rename_ok {source target : String} (h : fs.rename source target = .ok fs') :
    ∃ old node new found, fs.find source = .ok (old, some node) ∧ fs.find target = .ok (new, found)
      ∧ found ≠ some .folder ∧ (found = none → target.endsWith "/" = false)
      ∧ fs' = (fs.remove old).put new node := by
  rw [rename] at h
  dsimp only at h
  split at h
  · cases h
  · cases h
  · cases h
  · cases h
  · rename_i old node new found hfolder hsource htarget
    refine ⟨old, node, new, found, hsource, htarget, hfolder, ?_⟩
    split at h
    · cases h
    · rename_i hend
      cases h
      refine ⟨?_, rfl⟩
      rintro rfl
      simpa using hend

theorem rename_of_find {source target : String} (hsource : fs.find source = .ok (key, some node)) {new : PathKey}
    {found : Option Node} (htarget : fs.find target = .ok (new, found)) (hfound : found ≠ some .folder)
    (hend : found = none → target.endsWith "/" = false) :
    fs.rename source target = .ok ((fs.remove key).put new node) := by
  rw [rename, hsource, htarget]
  cases found with
  | none => simp [hend rfl]
  | some other =>
    cases other with
    | folder => exact absurd rfl hfound
    | file data => rfl
    | archive e => rfl

/-- A file that is moved is found at its new place, and all folders are kept. -/
theorem rename_file {source target : String} (h : fs.rename source target = .ok fs')
    (hsource : fs.find source = .ok (key, some node)) (hfile : node ≠ .folder) :
    fs'.stat target = .ok node ∧ KeepsFolders fs fs' := by
  obtain ⟨old, node', new, found, hold, htarget, hfound, hend, rfl⟩ := rename_ok h
  obtain ⟨rfl, rfl⟩ : old = key ∧ node' = node := by simpa [hsource, eq_comm] using hold
  have hnew : fs.node? new ≠ some .folder := by rwa [node?_of_find htarget hfound]
  have hsome : some node' ≠ some .folder := by simpa using hfile
  have hold : fs.node? old ≠ some .folder := by rwa [node?_of_find hsource hsome]
  have hremoved : (fs.remove old).node? new ≠ some .folder := by
    rw [node?_remove (ne_nil_of_not_folder hold)]
    split
    · simp
    · exact hnew
  have hkeeps : KeepsFolders fs ((fs.remove old).put new node') :=
    .trans (.remove hold) (.put hremoved _)
  refine ⟨?_, hkeeps⟩
  have hthere := (fs.remove old).node?_put_self (ne_nil_of_not_folder hremoved) node'
  rw [stat, hkeeps.find_place htarget hfound hend hthere hfile]

end BlockWorld.Save.Files
