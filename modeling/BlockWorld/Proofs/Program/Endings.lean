import BlockWorld.Proofs.Http.Savable
import BlockWorld.Proofs.Program.Phases
import BlockWorld.Proofs.World.Extent
/-!
# Runs of the server that end without error

When a run is told to stop, everything left to do is one save, and it ends without error if that save succeeds
(`runConfig_of_stopping`). Two things can stand against it: the place of the save, and the world.

## How the proof goes

* The place. `Welcomes` says that a save can be started and finished there, whatever its entries. A store that
  is open always does. An archive file needs a name for the temporary file and something else than a folder at
  its path; this can be checked on the tree before the run (`welcomes_of_keys`). A place that welcomes a save
  takes every world that can be saved (`Welcomes.save`).
* The world. It can be saved if its megachunks fit into headers, and for that it is enough to know where they
  are. A run makes megachunks where it fills chunks and where requests put blocks (`within_answers`,
  `within_stopping`), so that a run which does both around the origin only has a world that can be saved.

`exitCode_of_home` puts the two together. Between the beginning of the run and its save the disk must stay
welcoming: a run with an archive file whose requests only put blocks writes nothing but messages
(`wrote_stopping_of_file`).
-/
namespace BlockWorld.Program

open Save Disk

/-! ## Saves that succeed -/

namespace Persistence

variable {l : Location} {d : Disk} {w : World} {id : String} {savedAt : Data.Timestamp}

/-- A place where a save can be started now, and finished whatever its entries are. -/
inductive Welcomes (l : Location) (compression : String) (d : Disk) : Prop where
  | file {fs : Files} {out : ArchiveWriter} (hl : l.backend = .file)
      (hcreate : ArchiveWriter.create d.files l.path compression = (fs, .ok out))
      (hclose : ∀ entries, (ArchiveWriter.close { out with entries } fs).2.2 = .ok ())
  | generations (hl : l.backend = .generations) (hopen : (d.store l.path).isOpen = true)

theorem takes_file {out : ArchiveWriter} (hopen : out.finished = false) :
    OpenSink.sink.Takes fun s => ∃ entries, s = .file { out with entries } := by
  rintro s name data hname ⟨entries, rfl⟩
  have hwrite : OpenSink.sink.write (.file { out with entries }) name data
      = (.file { out with entries := entries.insert name data }, .ok ()) := by
    simp [OpenSink.sink, OpenSink.write, ArchiveWriter.write, hopen, hname]
  rw [hwrite]
  exact ⟨rfl, _, rfl⟩

theorem takes_generation (path : String) (out : GenerationWriter) (hopen : out.finished = false) :
    OpenSink.sink.Takes fun s => ∃ batch, s = .generation path { out with batch } := by
  rintro s name data - ⟨batch, rfl⟩
  have hwrite : OpenSink.sink.write (.generation path { out with batch }) name data
      = (.generation path { out with batch := batch.insert (generationStart out.generation ++ name) data },
        .ok ()) := by
    simp [OpenSink.sink, OpenSink.write, GenerationWriter.write, hopen]
  rw [hwrite]
  exact ⟨rfl, _, rfl⟩

/-- An archive file can be made where a temporary file can be made beside it, and something else than a folder
is replaced. -/
theorem welcomes_of_keys {compression : String} (hl : l.backend = .file) (temp key : PathKey)
    (htemp : ((ArchiveWriter.create d.files l.path compression).2.toOption.map fun out =>
      (d.files.mkdirAll (Text.folderOf l.path)).1.key? out.temp) = some (some temp))
    (hkey : (((d.files.mkdirAll (Text.folderOf l.path)).1.find l.path).toOption.map fun found =>
      (found.1, found.2.any Node.isFolder)) = some (key, false))
    (hend : l.path.endsWith "/" = false) (hne : temp ≠ key) : Welcomes l compression d := by
  obtain ⟨fs, result, hcreate⟩ : ∃ fs result, ArchiveWriter.create d.files l.path compression = (fs, result) :=
    ⟨_, _, rfl⟩
  rw [hcreate] at htemp
  cases result with
  | error e => cases htemp
  | ok out =>
    obtain ⟨hpath, -, hopen, -, n, hbegun⟩ := ArchiveWriter.create_ok hcreate
    generalize (d.files.mkdirAll (Text.folderOf l.path)).1 = base at htemp hkey hbegun
    cases hfind : base.find l.path with
    | error p =>
      rw [hfind] at hkey
      cases hkey
    | ok place =>
      obtain ⟨key', found⟩ := place
      rw [hfind] at hkey
      obtain ⟨rfl, hfolder⟩ := Prod.mk.inj (Option.some.inj hkey)
      refine .file hl hcreate fun entries => ?_
      refine ArchiveWriter.close_of_find (hbegun.of_temp rfl) hopen
        ((Files.find_numbered ..).trans (hpath.symm ▸ hfind)) ?_ (fun _ => hpath.symm ▸ hend) ?_
      · rintro rfl
        cases hfolder
      · rw [Files.key?, Files.find_numbered]
        exact fun he => hne (Option.some.inj ((Option.some.inj htemp).symm.trans he))

/-- A world that can be saved is saved there. -/
theorem Welcomes.save (h : Welcomes l w.compression d) (hw : w.Savable) (id : String)
    (savedAt : Data.Timestamp) : (Persistence.save OpenSink.sink l id savedAt w d).result.isOk = true := by
  have hentries := World.savable_iff_entries.mp hw
  cases h with
  | @file fs out hl hcreate hclose =>
    obtain ⟨-, hempty, hopen, -⟩ := ArchiveWriter.create_ok hcreate
    obtain ⟨hok, entries, hwritten⟩ := World.saveTo_of_takes (takes_file hopen) hentries savedAt
      (s := .file out) ⟨out.entries, rfl⟩
    rw [(save_of_written (openSink_file_ok hl hcreate) hok).2, hwritten]
    have hfinish : (({ d with files := fs } : Disk).finishSink (.file { out with entries })).2.1
        = (ArchiveWriter.close { out with entries } fs).2.2 := rfl
    rw [hfinish, hclose]
    rfl
  | generations hl hopen =>
    obtain ⟨hok, batch, hwritten⟩ := World.saveTo_of_takes
      (takes_generation l.path ⟨(d.store l.path).session, id, .empty, false⟩ rfl) hentries savedAt
      (s := .generation l.path ⟨(d.store l.path).session, id, .empty, false⟩) ⟨.empty, rfl⟩
    rw [(save_of_written (openSink_generations hl hopen _) hok).2, hwritten]
    have hserves : (begun (d.store l.path)).serves (d.store l.path).session = true := by
      simp [Generations.serves, begun, hopen]
    exact (finishSink_generation (d.setStore l.path (begun (d.store l.path))) l.path
      ⟨(d.store l.path).session, id, batch, false⟩ rfl (by rwa [store_setStore])).2

end Persistence

/-! ## Runs that come to the end -/

namespace Server

open Persistence World Grid Block

variable {c : Config} {env : Environment} {visits : List Visit} {r r' : Running} {w : World}

theorem saveWorld_of_welcomes {l : Location} (h : Welcomes l w.compression r.disk) (hw : w.Savable) :
    (saveWorld l w r).2.2 = .ok () := by
  have hok := h.save hw (nextId l r.disk) r.now
  rw [result_saveWorld]
  change ((Persistence.save OpenSink.sink l (nextId l r.disk) r.now w r.disk).result) = _
  generalize (Persistence.save OpenSink.sink l (nextId l r.disk) r.now w r.disk).result = result at hok
  cases result with
  | error e => cases hok
  | ok u => rfl

/-- A run that is told to stop ends without error if its world can be saved where it is stored. -/
theorem runConfig_of_stopping (h : stopping c env visits r = (r', .ok w))
    (hplace : Welcomes c.location w.compression r'.disk) (hw : w.Savable) :
    (runConfig c env visits r).2 = .ok () := by
  have hsave := saveWorld_of_welcomes hplace hw
  cases hstarting : starting c env r with
  | mk r₃ result =>
    cases result with
    | error e =>
      rw [stopping, hstarting] at h
      cases h
    | ok started =>
      obtain ⟨registry, found, v⟩ := started
      rw [runConfig_of_starting hstarting, serve]
      rw [stopping, hstarting] at h
      dsimp only at h ⊢
      generalize listen (c.port env.port) r₃ = listening at h
      obtain ⟨r₄, e₄ | u⟩ := listening
      · cases h
      · dsimp only at h ⊢
        cases h
        generalize saveWorld c.location _ _ = saved at hsave
        obtain ⟨r₆, v₆, result⟩ := saved
        cases hsave
        rfl

/-- A run that has loaded its world comes to the signal to stop, if its port is one. -/
theorem stopping_of_loading (visits : List Visit) {registry : Registry} {found : Bool} {v : World}
    (h : loading c env r = (r', .ok (registry, found, v)))
    (hport : (Http.checkAddress (":" ++ Text.integer (c.port env.port))).isOk = true) :
    ∃ r'' w, stopping c env visits r = (r'', .ok w) := by
  rw [stopping, starting_of_loading h]
  dsimp only
  generalize (fillSpawn c.world.spawnRadius v (announce c.location found v r')).1 = r₃
  have hlisten : (listen (c.port env.port) r₃).2 = .ok () := by
    rw [listen]
    generalize Http.checkAddress (":" ++ Text.integer (c.port env.port)) = address at hport
    cases address with
    | error e => cases hport
    | ok u => rfl
  generalize listen (c.port env.port) r₃ = listening at hlisten
  obtain ⟨r₄, result⟩ := listening
  cases hlisten
  exact ⟨_, _, rfl⟩

/-! ## Worlds that stay small -/

theorem within_answers {cs : List Coord} (l : Location) {state : Http.Service × Running}
    (h : state.1.world.Within cs)
    (hvisits : ∀ v ∈ visits, ∀ p ∈ Http.putTarget? state.1.registry v.request, p.parent.parent ∈ cs) :
    (visits.foldl (answer l) state).1.world.Within cs := by
  induction visits generalizing state with
  | nil => exact h
  | cons v visits ih =>
    have hsaver : ∀ f ∈ some (saver l), f.KeepsMegachunks := by
      rintro f ⟨⟩
      exact Http.keepsMegachunks_saver l
    obtain ⟨hregistry, hlabels⟩ := Http.leaves_serve hsaver v.context state.1 state.2 v.request
    have hput := hvisits v List.mem_cons_self
    have hworld : (answer l state v).1.world.label
        = (Http.serve (some (saver l)) v.context state.1 state.2 v.request).service.world.label :=
      label_forgetEvents _
    have hsame : (answer l state v).1.registry = state.1.registry := hregistry
    refine ih ?_ fun v' hv' => ?_
    · cases htarget : Http.putTarget? state.1.registry v.request with
      | none =>
        rw [htarget] at hlabels
        exact h.of_label (hworld.trans hlabels)
      | some p =>
        rw [htarget] at hlabels hput
        exact h.of_claim (hput p rfl) (hworld.trans hlabels)
    · rw [hsame]
      exact hvisits v' (List.mem_cons_of_mem v hv')

/-- The world of a run that fills nothing but the chunks at the origin. -/
theorem within_stopping {registry : Registry} {found : Bool} {v : World} {r₂ : Running}
    (hloading : loading c env r = (r₂, .ok (registry, found, v))) (hv : v.Within home)
    (hradius : c.world.spawnRadius = 0)
    (hvisits : ∀ visit ∈ visits, ∀ p ∈ Http.putTarget? registry visit.request, p.parent.parent ∈ home)
    (h : stopping c env visits r = (r', .ok w)) : w.Within home := by
  obtain ⟨r₃, registry', found', u, hstarting, -, rfl⟩ := stopping_ok h
  have hfilled : (fillSpawn 0 v (announce c.location found v r₂)).2.Within home :=
    (hv.generateSpawn_home v.seed).of_label (label_forgetEvents _)
  rw [starting_of_loading hloading, hradius] at hstarting
  generalize fillSpawn 0 v (announce c.location found v r₂) = filled at hstarting hfilled
  cases hstarting
  exact within_answers c.location hfilled hvisits

/-- A run that fills and changes nothing but the surroundings of the origin ends without error, as long as its
world can be stored. -/
theorem exitCode_of_home {d : Disk} (hboot : boot c env d = some r) {registry : Registry} {found : Bool} {v : World}
    {r₂ : Running} (hloading : loading c env r = (r₂, .ok (registry, found, v))) (hv : v.Within home)
    (hradius : c.world.spawnRadius = 0)
    (hport : (Http.checkAddress (":" ++ Text.integer (c.port env.port))).isOk = true)
    (hvisits : ∀ visit ∈ visits, ∀ p ∈ Http.putTarget? registry visit.request, p.parent.parent ∈ home)
    (hplace : ∀ r' w, stopping c env visits r = (r', .ok w) → Welcomes c.location w.compression r'.disk) :
    (runLogged c env visits d).exitCode = 0
      ∧ ∃ r' w, stopping c env visits r = (r', .ok w) ∧ w.Within home := by
  obtain ⟨r', w, hstopping⟩ := stopping_of_loading visits hloading hport
  have hw := within_stopping hloading hv hradius hvisits hstopping
  have hok := runConfig_of_stopping hstopping (hplace r' w hstopping) (hw.savable (by decide))
  refine ⟨?_, r', w, hstopping, hw⟩
  rw [runLogged_of_boot hboot]
  generalize runConfig c env visits r = ended at hok
  obtain ⟨r'', result⟩ := ended
  cases hok
  rfl

/-! ## Disks that stay as they are -/

/-- Requests to put a block. -/
def Puts (visits : List Visit) : Prop :=
  ∀ v ∈ visits, v.request.method = "PUT" ∧ v.request.path = "/api/block"

/-- To put blocks is to write messages. -/
theorem wrote_answers_of_puts (l : Location) (state : Http.Service × Running) (hr : state.2.Settled)
    (hputs : Puts visits) : state.2.Wrote (visits.foldl (answer l) state).2 := by
  induction visits generalizing state with
  | nil => exact .refl hr
  | cons v visits ih =>
    have hstore := Http.store_serve_put (some (saver l)) v.context state.1 state.2 (hputs v List.mem_cons_self)
    have hanswer : state.2.Wrote (answer l state v).2 := by
      rw [answer]
      dsimp only
      generalize Http.serve (some (saver l)) v.context state.1 state.2 v.request = served at hstore
      rw [hstore]
      have htold := Running.Wrote.tell hr "http" served.messages
      have hworld := htold.trans (.tellWorld htold.settled served.service.world)
      exact ⟨hworld.log, hworld.stores, hworld.now⟩
    exact hanswer.trans (ih _ hanswer.settled fun v' hv' => hputs v' (List.mem_cons_of_mem v hv'))

theorem wrote_opening_of_file (hr : r.Settled) (hl : c.location.backend = .file) {registry : Registry}
    (h : opening c r = (r', .ok registry)) : r.Wrote r' := by
  have hprepared := wrote_prepare_world hr c
  rw [opening] at h
  generalize loadCatalog c.world.blockCatalog (greet r) = catalog at h hprepared
  obtain ⟨r₁, e₁ | registry'⟩ := catalog
  · cases h
  · dsimp only at h hprepared
    rw [openStorage, hl] at h
    cases h
    exact hprepared

/-- A run with an archive file that only puts blocks writes nothing but messages until it saves. -/
theorem wrote_stopping_of_file (hr : r.Settled) (hl : c.location.backend = .file) (hputs : Puts visits)
    (h : stopping c env visits r = (r', .ok w)) : r.Wrote r' := by
  obtain ⟨r₃, registry, found, v, hstarting, rfl, -⟩ := stopping_ok h
  obtain ⟨r₂, u, hloading, hfill⟩ := starting_ok hstarting
  obtain ⟨r₁, hopening, hload⟩ := loading_ok hloading
  have hopened := wrote_opening_of_file hr hl hopening
  have hloaded := hopened.trans (wrote_loadWorld hopened.settled c.location (newWorld c env))
  rw [hload] at hloaded
  have hannounced := hloaded.trans (wrote_announce hloaded.settled c.location found u)
  have hfilled := hannounced.trans (wrote_fillSpawn hannounced.settled c.world.spawnRadius u)
  rw [hfill] at hfilled
  have hlisten := hfilled.trans (wrote_listen hfilled.settled (c.port env.port))
  generalize (listen (c.port env.port) r₃).1 = r₄ at hlisten
  have hanswered := hlisten.trans (wrote_answers_of_puts c.location (newService c registry v, r₄)
    hlisten.settled hputs)
  exact hanswered.trans (.say hanswered.settled .info "📡 Получен сигнал terminated, завершение работы...")

end Server

end BlockWorld.Program
