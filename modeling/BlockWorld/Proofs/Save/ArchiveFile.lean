import BlockWorld.Proofs.Save.Files
/-!
Archive files being written. Until a writer is closed its entries are in a temporary file beside their
place, and all else is as before (`Begun`). Giving the writer up takes that file away again
(`abort_of_begun`). Closing it either fails and does the same, or puts the whole archive in its place
(`close_of_begun`).

How the proof goes. `Begun` has the tree from before the writer was made in its statement, and the place and
the name of the temporary file, which was free there. Taking the file away gives back the very same nodes
(`Begun.removeAt`), and so nothing has to be said of the rest of the tree. Closing writes the archive into the
temporary file first (`Begun.put_archive`) and moves it then; if the move is refused the file is taken away as
well. The move is not refused where the path leads to something else than a folder (`close_of_find`).
-/
namespace BlockWorld.Save.ArchiveWriter

open Files

variable {base fs : Files} {w : ArchiveWriter}

/-- A tree that has the temporary file of a writer, and is else as it was. -/
def Begun (w : ArchiveWriter) (base fs : Files) : Prop :=
  ∃ key, base.find w.temp = .ok (key, none) ∧ w.temp.endsWith "/" = false
    ∧ fs = base.put key (.file .empty)

/-! ## Starting -/

theorem create_error {path compression : String} {e : ArchiveError} {fs' : Files}
    (h : create fs path compression = (fs', .error e)) :
    fs' = fs ∨ fs' = (fs.mkdirAll (Text.folderOf path)).1 := by
  rw [create] at h
  dsimp only at h
  split at h
  · cases h
    exact .inl rfl
  · split at h
    · rename_i hmake
      cases h
      exact .inr (congrArg Prod.fst hmake).symm
    · rename_i hmake
      split at h
      · cases h
        exact .inr (congrArg Prod.fst hmake).symm
      · cases h

theorem create_ok {path compression : String} {fs' : Files}
    (h : create fs path compression = (fs', .ok w)) :
    w.path = path ∧ w.entries = .empty ∧ w.finished = false
      ∧ (fs.mkdirAll (Text.folderOf path)).2 = .ok ()
      ∧ ∃ n, w.Begun ((fs.mkdirAll (Text.folderOf path)).1.numbered n) fs' := by
  rw [create] at h
  dsimp only at h
  split at h
  · cases h
  · split at h
    · cases h
    · rename_i made hmake
      split at h
      · cases h
      · rename_i temp fs'' htemp
        cases h
        obtain ⟨n, key, hfind, hend, hfiles⟩ := createTemp_ok htemp
        rw [hmake]
        exact ⟨rfl, rfl, rfl, rfl, n, key, (find_numbered ..).trans hfind, hend, hfiles⟩

/-! ## Ending -/

theorem Begun.of_temp {w' : ArchiveWriter} (h : w.Begun base fs) (ht : w'.temp = w.temp) :
    w'.Begun base fs := by
  rw [Begun, ht]
  exact h

theorem file_ne_folder (data : ByteArray) : Node.file data ≠ .folder := by simp

/-- Taking the temporary file away gives the tree from before. -/
theorem Begun.removeAt (h : w.Begun base fs) : fs.removeAt w.temp = base := by
  obtain ⟨key, hfind, hend, rfl⟩ := h
  rw [Files.removeAt, key?, find_put_file hfind hend (file_ne_folder .empty)]
  exact remove_put_of_free (free_of_find hfind) _

theorem abort_of_begun (h : w.Begun base fs) (hopen : w.finished = false) :
    (w.abort fs).2 = base := by
  rw [abort, hopen]
  exact h.removeAt

theorem Begun.put_archive (h : w.Begun base fs) (entries : Entries) :
    ∃ key, base.find w.temp = .ok (key, none) ∧ w.temp.endsWith "/" = false
      ∧ fs.put ((fs.key? w.temp).getD []) (.archive entries) = base.put key (.archive entries) := by
  obtain ⟨key, hfind, hend, rfl⟩ := h
  refine ⟨key, hfind, hend, ?_⟩
  rw [key?, find_put_file hfind hend (file_ne_folder .empty)]
  simp [put, Except.toOption]

theorem close_of_begun (h : w.Begun base fs) (hopen : w.finished = false) :
    (∃ e, (w.close fs).2 = (base, .error e))
      ∨ ∃ fs', (w.close fs).2 = (fs', .ok ()) ∧ fs'.stat w.path = .ok (.archive w.entries)
        ∧ KeepsFolders base fs' := by
  rw [close, hopen, if_neg Bool.false_ne_true]
  dsimp only
  split
  · rename_i fs' hmove
    obtain ⟨key, hfind, hend, hput⟩ := h.put_archive w.entries
    rw [hput] at hmove
    have hfile : Node.archive w.entries ≠ .folder := by simp
    obtain ⟨hstat, hkeeps⟩ := rename_file hmove (find_put_file hfind hend hfile) hfile
    exact .inr ⟨fs', rfl, hstat, .trans (.put_of_free (free_of_find hfind) _) hkeeps⟩
  · rename_i e _
    exact .inl ⟨.replaceFile e, by rw [h.removeAt]⟩

/-- An archive can be finished at a path that leads to something else than a folder or the temporary file. -/
theorem close_of_find (h : w.Begun base fs) (hopen : w.finished = false) {key : PathKey} {found : Option Node}
    (hplace : base.find w.path = .ok (key, found)) (hfound : found ≠ some .folder)
    (hend : found = none → w.path.endsWith "/" = false) (hne : base.key? w.temp ≠ some key) :
    (w.close fs).2.2 = .ok () := by
  obtain ⟨temp, hfind, htemp, hput⟩ := h.put_archive w.entries
  have hfile : Node.archive w.entries ≠ .folder := by simp
  have hkeeps := KeepsFolders.put_of_free (free_of_find hfind) (.archive w.entries)
  have hsame : (base.put temp (.archive w.entries)).node? key = found := by
    rw [node?_put (ne_nil_of_free (free_of_find hfind)), if_neg, node?_of_find hplace hfound]
    rintro rfl
    exact hne (by rw [key?, hfind]; rfl)
  have htarget : (base.put temp (.archive w.entries)).find w.path = .ok (key, found) := by
    cases found with
    | none => exact hkeeps.find_free hplace hsame
    | some node => exact hkeeps.find_place hplace hfound hend hsame (by simpa using hfound)
  rw [close, hopen, if_neg Bool.false_ne_true]
  dsimp only
  rw [hput, rename_of_find (find_put_file hfind htemp hfile) htarget hfound hend]

end BlockWorld.Save.ArchiveWriter
