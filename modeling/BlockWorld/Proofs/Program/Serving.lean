import BlockWorld.Proofs.Http.Effects
import BlockWorld.Proofs.ManifestText
import BlockWorld.Proofs.Program.Phases
import BlockWorld.Proofs.World.Generating
import BlockWorld.Proofs.World.LateLoading
import BlockWorld.Proofs.World.Reloading
import BlockWorld.Proofs.World.SaveLoad
/-!
# Worlds that are served

What a run of the server keeps true of its world between two requests, and what its last save is worth to
the next run. Two statements are used outside:

    (runConfig c env visits r).2 = .ok () → HoldsAt (runConfig c env visits r).1.disk c.location false …
    HoldsAt r.disk c.location false a.entries → ∃ r' w', starting c env r = (r', .ok …) ∧ w.Restored w'

The first (`holdsAt_of_ok`) says that a run without error leaves the save of the world it had at the end,
the second (`starting_of_holdsAt`) that a run that finds this save serves the same world.

How the proof goes:

* `Restored` says what a loaded world has in common with the saved one. `SavedAs.restored` gets it from the
  entries of the save, provided that the manifest is read as it was written. `SavedAs.loadFrom_of_refused`
  is the other case.
* `Resident` is the invariant of a served world: it can be saved, its remembered faces are right, and the
  chunks around the origin are filled. It holds when serving starts (`resident_starting`), and every request
  keeps it (`Resident.effect`).
* `Serving` adds the disk to it. A request saves at most once, so `n` requests use up at most `n` of the
  saves that the disk is `Ready` for (`Serving.answer`, `Serving.answers`).
* The chunks around the origin are filled in the loaded world because they were in the saved one, so filling
  them again changes nothing (`fillSpawn_of_restored`).
* A run that fails before it serves writes logs and nothing else (`journaled_of_not_loaded`).
-/
namespace BlockWorld

open Grid Block Save

/-! ## Worlds that are loaded again -/

theorem Chunk.block?_quantized (c : Chunk) (l : Local) :
    c.quantized.block? l = (c.block? l).map Cell.quantized := by
  have hair : (c.cell l).quantized.isAir = (c.cell l).isAir := rfl
  rw [block?, block?, cell_quantized, hair]
  split <;> rfl

namespace World

variable {w v : World}

/-- A world that is the same as another up to rounded damages and forgotten faces. -/
structure Restored (w v : World) : Prop where
  id : v.id = w.id
  seed : v.seed = w.seed
  createdAt : v.createdAt = w.createdAt
  coords : v.coords = w.coords
  chunks : ∀ c, v.chunk? c = (w.chunk? c).map ChunkData.reloaded
  generated : ∀ c, v.isGenerated c = w.isGenerated c
  kinds : ∀ p, v.kind? p = w.kind? p
  blocks : ∀ p, v.block? p = (w.block? p).map Cell.quantized

section Chunks

variable (h : ∀ c, v.chunk? c = (w.chunk? c).map ChunkData.reloaded)
include h

theorem isGenerated_of_reloaded (c : Coord) : v.isGenerated c = w.isGenerated c := by
  rw [isGenerated_eq, isGenerated_eq, h, Option.map_map]
  rfl

theorem block?_of_reloaded (p : Coord) : v.block? p = (w.block? p).map Cell.quantized := by
  rw [block?_eq_chunk?, block?_eq_chunk?, h]
  cases w.chunk? p.parent with
  | none => rfl
  | some d => exact d.chunk.block?_quantized p.place

theorem kind?_of_reloaded (p : Coord) : v.kind? p = w.kind? p := by
  rw [kind?, kind?, block?_of_reloaded h, Option.map_map]
  rfl

end Chunks

theorem Restored.unchanged {v' : World} (h : w.Restored v) (hv : v.Unchanged v') : w.Restored v' := by
  have hchunks : ∀ c, v'.chunk? c = (w.chunk? c).map ChunkData.reloaded := fun c =>
    (hv.storage.chunk?_eq c).trans (h.chunks c)
  have hcoords : v'.coords = v.coords := by
    unfold World.coords
    rw [hv.storage.1]
  exact ⟨hv.name.1.trans h.id, hv.name.2.1.trans h.seed, hv.name.2.2.1.trans h.createdAt,
    hcoords.trans h.coords, hchunks, isGenerated_of_reloaded hchunks, kind?_of_reloaded hchunks,
    block?_of_reloaded hchunks⟩

section Load

variable {savedAt : Data.Timestamp} {a : MemoryArchive} (hs : w.SavedAs savedAt a)
include hs

/-- The entries of a save are loaded from wherever they are. -/
theorem SavedAs.loadFrom_entries {save : ParsedSave} (h : parseSave a.source = .ok save) :
    v.loadFrom a.entries.source = v.loadFrom a.source := by
  have hread : ∀ name data, a.source.read name = .ok data → a.entries.source.read name = .ok data := by
    intro name data hdata
    change a.read name = .ok data at hdata
    rw [MemoryArchive.read, hs.faultless.read, if_neg List.not_mem_nil] at hdata
    rw [Entries.source]
    dsimp only
    cases hget : a.entries.get? name with
    | none =>
      rw [hget] at hdata
      cases hdata
    | some found =>
      rw [hget] at hdata
      exact hdata
  have hmanifest := MemoryArchive.read_of_faultless hs.faultless hs.manifest
  refine loadFrom_congr v ((parseSave_of_fading ?_ ?_ hread h).trans h.symm)
  · rw [hmanifest, hread _ _ hmanifest]
  · exact MemoryArchive.names_of_faultless hs.faultless

theorem SavedAs.restored (hw : w.Regular) (hv : v.Owned)
    (hmanifest : Manifest.decode (w.manifest savedAt).encode = .ok (w.manifest savedAt)) :
    (v.loadFrom a.entries.source).1 = .ok () ∧ w.Restored (v.loadFrom a.entries.source).2 := by
  obtain ⟨save, hparse, hsame⟩ := hs.parseSave_ok hw hmanifest
  have hnamed := namedBy_loadFrom v hparse
  rw [hsame] at hnamed
  have hchunks : ∀ c, (v.loadFrom a.source).2.chunk? c = (w.chunk? c).map ChunkData.reloaded := by
    intro c
    rw [chunk?_eq_chunkAt, chunk?_eq_chunkAt]
    exact hs.chunkAt_loadFrom hw hv hparse c.parent c.place
  rw [hs.loadFrom_entries hparse]
  exact ⟨(loadFrom_of_ok v hparse).1, hnamed.id, hnamed.seed, hnamed.createdAt,
    coords_eq (hs.mem_coords_loadFrom hparse), hchunks, isGenerated_of_reloaded hchunks,
    kind?_of_reloaded hchunks, block?_of_reloaded hchunks⟩

/-- A manifest that is not read again makes the whole save useless. -/
theorem SavedAs.loadFrom_of_refused {e : ManifestError}
    (h : Manifest.decode (w.manifest savedAt).encode = .error e) :
    (v.loadFrom a.entries.source).1 = .error (.manifest e) := by
  have hread : a.entries.source.read Manifest.entryName = .ok (w.manifest savedAt).encode := by
    rw [Entries.source]
    dsimp only
    rw [hs.manifest]
  have hparse : parseSave a.entries.source = .error (.manifest e, none) := by
    rw [parseSave, Manifest.readFrom_of_ok hread, h]
    rfl
  exact (loadFrom_of_error v hparse).1

end Load

/-- A time of creation that a world takes from a save is proper. -/
theorem proper_createdAt_loadFrom (hw : w.createdAt.Proper) (source : Source) :
    (w.loadFrom source).2.createdAt.Proper := by
  cases h : parseSave source with
  | error e =>
    rw [(loadFrom_of_error w h).2.name.2.2.1]
    exact hw
  | ok save =>
    rw [createdAt_loadFrom w h]
    cases hsave : save.manifest with
    | none => exact hw
    | some m =>
      obtain ⟨hmanifest, -⟩ := parseSave_eq_ok h
      rw [hsave] at hmanifest
      obtain ⟨data, -, hdecode⟩ := Manifest.readFrom_eq_some_iff.mp hmanifest
      exact (Manifest.proper_of_decode hdecode).1

end World

end BlockWorld

namespace BlockWorld.Program.Server

open Save Disk Persistence Grid Block World

variable {c : Config} {env : Environment} {visits : List Visit} {r r' : Running} {w w' : World}

/-! ## Worlds that are served -/

/-- A world as a server has it: it can be saved and loaded, its remembered faces are right, the chunks around
the origin are filled, its time of creation is proper, and its compression is that of the configuration. -/
structure Resident (c : Config) (registry : Registry) (w : World) : Prop where
  regular : w.Regular
  faces : w.FacesTrue registry
  spawn : ∀ p ∈ Terrain.spawnChunks (Terrain.Generator.ofSeed w.seed).landscape c.world.spawnRadius,
    w.isGenerated p = true
  createdAt : w.createdAt.Proper
  compression : w.compression = c.storage.compression

theorem unchanged_forgetEvents (w : World) : w.Unchanged w.forgetEvents :=
  ⟨⟨rfl, rfl⟩, ⟨rfl, rfl, rfl, rfl⟩, rfl⟩

theorem regular_unchanged (hw : w.Regular) (h : w.Unchanged w') : w'.Regular :=
  hw.edit (.books h.storage h.name)

section Resident

variable {registry : Registry}

theorem Resident.unchanged (hw : Resident c registry w) (h : w.Unchanged w') : Resident c registry w' := by
  obtain ⟨-, hseed, hcreated, hcompression⟩ := h.name
  refine ⟨regular_unchanged hw.regular h, hw.faces.of_block?_eq h.storage.block?_eq, fun p hp => ?_,
    hcreated ▸ hw.createdAt, hcompression.trans hw.compression⟩
  rw [hseed] at hp
  rw [isGenerated_eq, h.storage.chunk?_eq, ← isGenerated_eq]
  exact hw.spawn p hp

/-- Requests neither fill chunks nor empty them. -/
theorem isGenerated_of_effect {s s' : Http.Service} {request : Http.Request} {a : Http.Answer}
    (ho : s.world.Owned) (h : Http.Effect s request a s') (c : Coord) :
    s'.world.isGenerated c = s.world.isGenerated c := by
  cases h with
  | looked _ hworld _ => exact (hworld.sameButFaces ho).isGenerated_eq c
  | put _ _ _ _ hworld _ =>
    rw [(hworld.sameButFaces ((edits_setBlock ..).owned ho)).isGenerated_eq, isGenerated_setBlock ho]
  | dug _ _ _ hworld _ =>
    rw [(hworld.sameButFaces ((edits_damageBlock ..).owned ho)).isGenerated_eq,
      isGenerated_damageBlock ho]

theorem Resident.effect {s s' : Http.Service} {request : Http.Request} {a : Http.Answer}
    (hw : Resident c s.registry s.world) (h : Http.Effect s request a s') : Resident c s'.registry s'.world := by
  have ho := hw.regular.owned
  obtain ⟨-, hseed, hcreated, hcompression⟩ := h.edits.sameName
  refine ⟨h.edits.keeps Regular.edit hw.regular, (h.sound ⟨ho, hw.faces⟩).faces, fun p hp => ?_,
    hcreated ▸ hw.createdAt, hcompression.trans hw.compression⟩
  rw [hseed] at hp
  rw [isGenerated_of_effect ho h]
  exact hw.spawn p hp

/-- Filling the chunks around the origin makes a world ready to be served. -/
theorem resident_fillSpawn (hw : w.Regular) (hfaces : w.FacesTrue registry) (hcreated : w.createdAt.Proper)
    (hcompression : w.compression = c.storage.compression) (r : Running) :
    Resident c registry (fillSpawn c.world.spawnRadius w r).2 := by
  have hedits := edits_generateSpawn (Terrain.Generator.ofSeed w.seed).landscape c.world.spawnRadius w
  obtain ⟨-, hseed, hcreated', hcompression'⟩ := hedits.sameName
  have hfilled : Resident c registry (Terrain.generateSpawn .world (Terrain.Generator.ofSeed w.seed).landscape
      c.world.spawnRadius w).target := by
    refine ⟨hedits.keeps Regular.edit hw, hfaces.generateSpawn hw.owned _ _, fun p hp => ?_,
      hcreated' ▸ hcreated, hcompression'.trans hcompression⟩
    rw [hseed] at hp
    exact isGenerated_generateSpawn _ hw.owned hp
  exact hfilled.unchanged (unchanged_forgetEvents _)

end Resident

/-- What a run keeps when it loads a save. -/
theorem load_keeps {P : World → Prop} (hw : P w) (hload : ∀ source, P (w.loadFrom source).2)
    (l : Location) (d : Disk) : P (load l w d).2 := by
  rw [load]
  split
  · exact hw
  · exact hw
  · rename_i source _
    have hloaded := hload source
    split <;> rename_i hend <;> rw [hend] at hloaded <;> exact hloaded

theorem loadWorld_ok {l : Location} {found : Bool} {v : World}
    (h : loadWorld l w r = (r', .ok (found, v))) :
    (load l w r.disk).1 = .ok found ∧ v = (load l w r.disk).2.forgetEvents := by
  rw [loadWorld] at h
  generalize load l w r.disk = loaded at h
  obtain ⟨result, u⟩ := loaded
  cases result with
  | error e => cases e <;> cases h
  | ok found' =>
    cases h
    exact ⟨rfl, rfl⟩

/-- The world of a run that is about to serve. -/
theorem resident_starting (hid : Text.Uuid.isValid env.worldId = true) (hnow : env.now.Proper)
    {registry : Registry} {found : Bool} (h : starting c env r = (r', .ok (registry, found, w))) :
    Resident c registry w := by
  obtain ⟨r₂, v, hloading, hfill⟩ := starting_ok h
  obtain ⟨r₁, -, hload⟩ := loading_ok hloading
  obtain ⟨-, hv⟩ := loadWorld_ok hload
  have hnew := regular_new hid c.world.seed env.now c.storage.compression
  have htrue := facesTrue_new registry c.world.seed env.worldId env.now c.storage.compression
  obtain ⟨hregular, hfaces, hcreated, hcompression⟩ := load_keeps
    (P := fun u => u.Regular ∧ u.FacesTrue registry ∧ u.createdAt.Proper ∧ u.compression = c.storage.compression)
    ⟨hnew, htrue, hnow, rfl⟩
    (fun source => ⟨hnew.loadFrom source, htrue.loadFrom hnew.owned source,
      proper_createdAt_loadFrom hnow source, compression_loadFrom _ source⟩) c.location r₁.disk
  have hforgot := unchanged_forgetEvents (load c.location (newWorld c env) r₁.disk).2
  rw [show w = _ from (congrArg Prod.snd hfill).symm]
  subst hv
  exact resident_fillSpawn (regular_unchanged hregular hforgot) (hfaces.of_block?_eq hforgot.storage.block?_eq)
    hcreated hcompression _

/-! ## Serving -/

/-- What holds between two requests: the world can be served, and so many saves can still be made. -/
structure Serving (c : Config) (now : Data.Timestamp) (n : Nat) (state : Http.Service × Running) : Prop where
  settled : state.2.Settled
  now : state.2.now = now
  ready : Ready c.location state.2.disk n
  resident : Resident c state.1.registry state.1.world

theorem store_saver (l : Location) (w : World) (r : Running) :
    (saver l w r).2.2 = (saveWorld l w r).1 := by
  rw [saver]
  split <;> rename_i hend <;> rw [hend]

section Serving

variable {now : Data.Timestamp} {n : Nat} {state : Http.Service × Running}

theorem Serving.answer (h : Serving c now (n + 1) state) (v : Visit) :
    Serving c now n (answer c.location state v) := by
  obtain ⟨service, r⟩ := state
  obtain ⟨hsettled, hnow, hready, hresident⟩ := h
  have hsaver : ∀ f ∈ some (saver c.location), f.KeepsWorld := by
    rintro f ⟨⟩
    exact Http.keepsWorld_saver c.location
  have heffect := Http.effect_serve hsaver ⟨hresident.regular.owned, hresident.faces⟩ v.context r v.request
  -- A request saves at most once.
  have hstore : let r' := (Http.serve (some (saver c.location)) v.context service r v.request).store
      r'.Settled ∧ r'.now = now ∧ Ready c.location r'.disk n := by
    obtain hsame | hsaved := Http.store_serve (saver c.location) v.context service r v.request
    · rw [hsame]
      exact ⟨hsettled, hnow, hready.pred⟩
    · rw [hsaved, store_saver]
      have hwrote := wrote_saveWorld hsettled c.location service.world
      exact ⟨hwrote.settled, hwrote.now.trans hnow, (hready.saveWorld hsettled _).1⟩
  rw [Server.answer]
  dsimp only at hstore ⊢
  generalize Http.serve (some (saver c.location)) v.context service r v.request = served at heffect hstore
  obtain ⟨hsettled', hnow', hready'⟩ := hstore
  have htold := Running.Wrote.tell hsettled' "http" served.messages
  have hworld := htold.trans (.tellWorld htold.settled served.service.world)
  have hplace := hready'.wrote hworld
  exact ⟨hworld.settled, hworld.now.trans hnow', hplace,
    (hresident.effect heffect).unchanged (unchanged_forgetEvents _)⟩

/-- What holds after all requests. -/
theorem Serving.answers (visits : List Visit) (h : Serving c now (visits.length + n) state) :
    Serving c now n (visits.foldl (Server.answer c.location) state) := by
  induction visits generalizing state with
  | nil => exact Nat.zero_add n ▸ h
  | cons v rest ih =>
    rw [List.length_cons, Nat.add_right_comm] at h
    exact ih (h.answer v)

end Serving

/-- The world of a run that is told to stop can be saved and loaded. -/
theorem serving_stopping (hr : r.Settled) (hid : Text.Uuid.isValid env.worldId = true) (hnow : env.now.Proper)
    (hnew : c.location.backend = .generations →
      NewIds ((opening c r).1.disk.store c.location.path) (visits.length + 1))
    (h : stopping c env visits r = (r', .ok w)) :
    r'.Settled ∧ r'.now = r.now ∧ Ready c.location r'.disk 1
      ∧ ∃ registry, Resident c registry w := by
  obtain ⟨r₃, registry, found, v, hstarting, rfl, rfl⟩ := stopping_ok h
  obtain ⟨r₂, u, hloading, hfill⟩ := starting_ok hstarting
  obtain ⟨r₁, hopening, hload⟩ := loading_ok hloading
  have hresident := resident_starting hid hnow hstarting
  have hspares := spares_opening hr c
  rw [hopening] at hnew hspares
  have hready : Ready c.location r₁.disk (visits.length + 1) := ready_opening hr hopening hnew
  -- Up to the first request only messages are written.
  have hloaded := wrote_loadWorld hspares.settled c.location (newWorld c env)
  rw [hload] at hloaded
  have hannounced := hloaded.trans (wrote_announce hloaded.settled c.location found u)
  have hfilled := hannounced.trans (wrote_fillSpawn hannounced.settled c.world.spawnRadius u)
  rw [hfill] at hfilled
  have hlisten := hfilled.trans (wrote_listen hfilled.settled (c.port env.port))
  generalize (listen (c.port env.port) r₃).1 = r₄ at hlisten
  have hserving : Serving c r.now (visits.length + 1) (newService c registry v, r₄) :=
    ⟨hlisten.settled, hlisten.now.trans hspares.now, hready.wrote hlisten, hresident⟩
  obtain ⟨hsettled, hsame, hready', hresident'⟩ := hserving.answers visits
  have hsaid := Running.Wrote.say hsettled .info "📡 Получен сигнал terminated, завершение работы..."
  exact ⟨hsaid.settled, hsaid.now.trans hsame, hready'.wrote hsaid, _, hresident'⟩

/-- Requests neither name a world nor date it. -/
theorem sameName_answers (l : Location) (state : Http.Service × Running) (hs : state.1.Sound) :
    state.1.world.SameName (visits.foldl (answer l) state).1.world := by
  induction visits generalizing state with
  | nil => exact .refl _
  | cons v visits ih =>
    have hsaver : ∀ f ∈ some (saver l), f.KeepsWorld := by
      rintro f ⟨⟩
      exact Http.keepsWorld_saver l
    have heffect := Http.effect_serve hsaver hs v.context state.2 v.request
    obtain ⟨howned, hfaces⟩ := heffect.sound hs
    have hforgot := unchanged_forgetEvents
      (Http.serve (some (saver l)) v.context state.1 state.2 v.request).service.world
    have hsound : (answer l state v).1.Sound :=
      ⟨hforgot.storage.owned howned, hfaces.of_block?_eq hforgot.storage.block?_eq⟩
    exact (heffect.edits.sameName.trans hforgot.name).trans (ih _ hsound)

/-- A run keeps the name of the world that it has loaded. -/
theorem sameName_stopping (hid : Text.Uuid.isValid env.worldId = true) (hnow : env.now.Proper)
    {registry : Registry} {found : Bool} {v : World} {r₂ : Running}
    (hloading : loading c env r = (r₂, .ok (registry, found, v)))
    (h : stopping c env visits r = (r', .ok w)) : v.SameName w := by
  obtain ⟨r₃, registry', found', u, hstarting, -, rfl⟩ := stopping_ok h
  have hresident := resident_starting hid hnow hstarting
  have hfilled : v.SameName (fillSpawn c.world.spawnRadius v (announce c.location found v r₂)).2 :=
    (edits_generateSpawn _ c.world.spawnRadius v).sameName.trans (unchanged_forgetEvents _).name
  rw [starting_of_loading hloading] at hstarting
  generalize fillSpawn c.world.spawnRadius v (announce c.location found v r₂) = filled at hstarting hfilled
  cases hstarting
  exact hfilled.trans (sameName_answers c.location (newService c registry filled.2, _)
    ⟨hresident.regular.owned, hresident.faces⟩)

/-- A run without error leaves the world that it had at the end in its save. -/
theorem holdsAt_of_ok (hr : r.Settled) (hid : Text.Uuid.isValid env.worldId = true) (hnow : env.now.Proper)
    (hnew : c.location.backend = .generations →
      NewIds ((opening c r).1.disk.store c.location.path) (visits.length + 1))
    (h : (runConfig c env visits r).2 = .ok ()) :
    ∃ w registry, (stopping c env visits r).2 = .ok w ∧ Resident c registry w
      ∧ (w.saveTo r.now MemoryArchive.sink .empty).2.1 = .ok ()
      ∧ HoldsAt (runConfig c env visits r).1.disk c.location false
        (w.saveTo r.now MemoryArchive.sink .empty).1.entries := by
  obtain ⟨r', w, hstopping, hsave, hend⟩ := runConfig_ok h
  obtain ⟨hsettled, hsame, hready, registry, hresident⟩ := serving_stopping hr hid hnow hnew hstopping
  obtain ⟨hmem, hholds⟩ := (hready.saveWorld hsettled w).2 hsave
  rw [hsame] at hmem hholds
  have hsaid := Running.Wrote.say (wrote_saveWorld hsettled c.location w).settled .info
    ("👋 Мир сохранён в " ++ c.location.text ++ ", сервер остановлен")
  refine ⟨w, registry, by rw [hstopping], hresident, hmem, ?_⟩
  rw [hend]
  exact closeStorage_holdsAt (hsaid.holdsAt hholds)

/-! ## Starting again -/

theorem opening_of_holdsAt (hr : r.Settled) {e : Entries} (h : HoldsAt r.disk c.location false e)
    {registry : Registry} (hcatalog : (loadCatalog c.world.blockCatalog (greet r)).2 = .ok registry) :
    ∃ r', opening c r = (r', .ok registry) ∧ HoldsAt r'.disk c.location true e := by
  have hprepared := wrote_prepare_world hr c
  rw [opening]
  generalize loadCatalog c.world.blockCatalog (greet r) = catalog at hprepared hcatalog
  obtain ⟨r₁, result⟩ := catalog
  cases hcatalog
  obtain ⟨hopened, hholds⟩ := openStorage_of_holdsAt hprepared.settled (hprepared.holdsAt h)
  dsimp only at hopened hholds ⊢
  generalize openStorage c.location (r₁.prepare "world") = opened at hopened hholds
  obtain ⟨r₂, result⟩ := opened
  cases hopened
  exact ⟨r₂, rfl, hholds⟩

theorem loadWorld_of_found {l : Location} {source : Source} (hfind : findSave l r.disk = .ok (some source))
    (hok : (w.loadFrom source).1 = .ok ()) :
    ∃ r', loadWorld l w r = (r', .ok (true, (w.loadFrom source).2.forgetEvents)) := by
  rw [loadWorld, load_of_some hfind, hok]
  exact ⟨_, rfl⟩

/-- Filling the chunks around the origin a second time changes nothing. -/
theorem fillSpawn_of_restored {registry : Registry} (hw : Resident c registry w) (h : w.Restored w') (r : Running) :
    w.Restored (fillSpawn c.world.spawnRadius w' r).2 := by
  have hfilled : (Terrain.generateSpawn .world (Terrain.Generator.ofSeed w'.seed).landscape
      c.world.spawnRadius w').target = w' := by
    refine generateSpawn_of_isGenerated _ fun p hp => ?_
    rw [h.seed] at hp
    rw [h.generated]
    exact hw.spawn p hp
  have hsame : (fillSpawn c.world.spawnRadius w' r).2 = w'.forgetEvents := congrArg World.forgetEvents hfilled
  rw [hsame]
  exact h.unchanged (unchanged_forgetEvents w')

/-- A run that finds the save of a world starts to serve that world. -/
theorem starting_of_holdsAt (hr : r.Settled) {registry registry' : Registry} {savedAt : Data.Timestamp}
    {a : MemoryArchive} (hw : Resident c registry w) (hs : w.SavedAs savedAt a)
    (hmanifest : Manifest.decode (w.manifest savedAt).encode = .ok (w.manifest savedAt))
    (h : HoldsAt r.disk c.location false a.entries)
    (hcatalog : (loadCatalog c.world.blockCatalog (greet r)).2 = .ok registry') (env : Environment) :
    ∃ r' w', starting c env r = (r', .ok (registry', true, w')) ∧ w.Restored w' := by
  obtain ⟨r₁, hopening, hholds⟩ := opening_of_holdsAt hr h hcatalog
  obtain ⟨hok, hrestored⟩ := hs.restored hw.regular
    (owned_new c.world.seed env.worldId env.now c.storage.compression) hmanifest
  obtain ⟨r₂, hload⟩ := loadWorld_of_found (findSave_of_holdsAt hholds hs.sorted) hok
  exact ⟨_, _, starting_of_loading (loading_of_opening hopening hload),
    fillSpawn_of_restored hw (hrestored.unchanged (unchanged_forgetEvents _)) _⟩

/-- A run that finds a save whose manifest it refuses does not start. -/
theorem loading_of_refused (hr : r.Settled) {registry : Registry} {savedAt : Data.Timestamp} {a : MemoryArchive}
    (hs : w.SavedAs savedAt a) {e : ManifestError} (hmanifest : Manifest.decode (w.manifest savedAt).encode = .error e)
    (h : HoldsAt r.disk c.location false a.entries)
    (hcatalog : (loadCatalog c.world.blockCatalog (greet r)).2 = .ok registry) (env : Environment) :
    (loading c env r).2 = .error (.load c.location (.manifest e)) := by
  obtain ⟨r₁, hopening, hholds⟩ := opening_of_holdsAt hr h hcatalog
  have hrefused := hs.loadFrom_of_refused hmanifest (v := newWorld c env)
  rw [loading, hopening]
  dsimp only
  rw [loadWorld, load_of_some (findSave_of_holdsAt hholds hs.sorted), hrefused]
  rfl

/-! ## Ends of runs -/

theorem findSave_of_load_false {l : Location} {d : Disk} (h : (load l w d).1 = .ok false) :
    findSave l d = .ok none := by
  cases hfind : findSave l d with
  | error e =>
    rw [load, hfind] at h
    cases h
  | ok found =>
    cases found with
    | none => rfl
    | some source =>
      rw [load_of_some hfind] at h
      cases hloaded : (w.loadFrom source).1 <;> rw [hloaded] at h <;> cases h

theorem report_of_exitCode {ended : Running × Except Failure Unit} (h : (report ended).exitCode = 0) :
    ended.2 = .ok () ∧ (report ended).disk = ended.1.disk := by
  obtain ⟨r, e | u⟩ := ended
  · rw [report] at h
    split at h <;> cases h
  · exact ⟨rfl, rfl⟩

/-- A run that has exited without error leaves a save of the world that it had at the end. -/
theorem holdsAt_of_exitCode {d : Disk} (hboot : boot c env d = some r) (hid : Text.Uuid.isValid env.worldId = true)
    (hnow : env.now.Proper)
    (hnew : c.location.backend = .generations →
      NewIds ((opening c r).1.disk.store c.location.path) (visits.length + 1))
    (h : (runLogged c env visits d).exitCode = 0) :
    ∃ w registry a, (stopping c env visits r).2 = .ok w ∧ Resident c registry w ∧ w.SavedAs env.now a
      ∧ HoldsAt (runLogged c env visits d).disk c.location false a.entries := by
  obtain ⟨r₀, -, hsame, -, hwrote⟩ := wrote_boot hboot
  rw [runLogged_of_boot hboot] at h ⊢
  obtain ⟨hended, hleft⟩ := report_of_exitCode h
  obtain ⟨w, registry, hstopping, hresident, hsaved, hholds⟩ := holdsAt_of_ok hwrote.settled hid hnow hnew hended
  rw [hwrote.now.trans hsame] at hsaved hholds
  exact ⟨w, registry, _, hstopping, hresident, hresident.regular.savedAs env.now hsaved, hleft ▸ hholds⟩

/-- A run that begins finds the save that is there. -/
theorem holdsAt_of_boot {d : Disk} (hboot : boot c env d = some r) {l : Location} {isOpen : Bool} {e : Entries}
    (h : HoldsAt d l isOpen e) : r.Settled ∧ HoldsAt r.disk l isOpen e := by
  obtain ⟨r₀, rfl, -, -, hwrote⟩ := wrote_boot hboot
  exact ⟨hwrote.settled, hwrote.holdsAt h⟩

/-- To tell how a run ends is to write to its logs, or nothing at all if it breaks down. -/
theorem wrote_report (hr : r.Settled) (e : Failure) :
    (report (r, .error e)).exitCode = (if Fault.isBreakdown e then breakdownCode else 1)
      ∧ ∃ r', r.Wrote r' ∧ (report (r, .error e)).disk = r'.disk := by
  rw [report]
  split
  · exact ⟨rfl, r, .refl hr, rfl⟩
  · exact ⟨rfl, _, .say hr .error ("❌ " ++ e.message), rfl⟩

/-- A run that does not load its world ends with an error, and nothing on its disk has changed but logs. -/
theorem journaled_of_not_loaded {d : Disk} (hboot : boot c env d = some r) {e : Failure}
    (h : (loading c env r).2 = .error e) :
    (runLogged c env visits d).exitCode = (if Fault.isBreakdown e then breakdownCode else 1)
      ∧ d.Journaled (Log.IsJournal c.log.dir env.now) (runLogged c env visits d).disk := by
  obtain ⟨r₀, hdisk, -, hlogs, hwrote⟩ := wrote_boot hboot
  have hspares : r.Spares (runConfig c env visits r).1 := spares_of_not_loaded hwrote.settled h
  have herror : (runConfig c env visits r).2 = .error e := (runConfig_of_not_loaded h).1
  rw [runLogged_of_boot hboot]
  generalize runConfig c env visits r = ended at hspares herror
  obtain ⟨r₁, result⟩ := ended
  cases herror
  obtain ⟨hexit, r₂, htold, hleft⟩ := wrote_report hspares.settled e
  have hkept := (((Running.Spares.of_wrote hwrote).trans hspares).trans (.of_wrote htold)).disk
  rw [hdisk, hlogs] at hkept
  exact ⟨hexit, hleft ▸ hkept⟩

end BlockWorld.Program.Server
