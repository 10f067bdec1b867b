import BlockWorld.Proofs.Program.Endings
import BlockWorld.Proofs.Program.Serving
/-!
# Runs at the origin

Runs of the server whose worlds stay near the origin, where everything that decides about their end can be
computed: the configuration `homeConfig` fills one column of chunks, and the requests put blocks next to it.

`exitCode_homeConfig` says that such a run ends without error and what its manifest is. The blocks of the
world are never evaluated for this. What the run finds on its disk is evaluated up to the first chunk
(`found?`); from there on `exitCode_of_home` bounds the megachunks by the four around the origin, and this
bound is all that the save at the end asks for. What a request has put into the world is read off the effect
of the request (`kind?_stoneVisit`).
-/
namespace BlockWorld.Program.Server

open Save Disk Persistence Grid Block World

variable {c : Config} {env : Environment} {visits : List Visit} {r r' : Running} {w w' : World}

/-! ## Runs at the origin -/

def environmentAt (seconds : Nat) : Environment :=
  ⟨"", "8080", .ofUnix seconds 0, "7f3c9a52-0000-4b1e-9d06-000000000001"⟩

/-- A configuration with which the column of chunks at the origin is filled. -/
def homeConfig (backend : String) : Config where
  world := { Config.default.world with spawnRadius := 0 }
  storage := { Config.default.storage with backend }
  server := Config.default.server
  log := Config.default.log

/-- What the environment gives is well-formed, and the server can listen at its port. -/
theorem environmentAt_five :
    (environmentAt 5).now.Proper ∧ (environmentAt 5).now.Near ∧ Text.Uuid.isValid (environmentAt 5).worldId = true
      ∧ Manifest.losesStart (environmentAt 5).worldId = false
      ∧ (Http.checkAddress (":" ++ Text.integer ((homeConfig "zip").port (environmentAt 5).port))).isOk = true := by
  decide +kernel

/-- What a run finds and loads: whether there is a save, and what the world of the save says of itself. -/
def found? (c : Config) (env : Environment) (d : Disk) : Option (Except Failure (Bool × Nat × Manifest)) :=
  (boot c env d).map fun r => (loading c env r).2.map fun x => (x.2.1, x.2.2.megachunkCount, x.2.2.manifest env.now)

section Home

variable {backend : String} {d : Disk} {found : Bool} {m : Manifest}

theorem loading_of_found? (h : found? c env d = some (.ok (found, 0, m))) :
    ∃ r r₂ registry v, boot c env d = some r ∧ loading c env r = (r₂, .ok (registry, found, v))
      ∧ v.megachunkCount = 0 ∧ v.manifest env.now = m := by
  obtain ⟨r, hboot, hload⟩ := Option.map_eq_some_iff.mp h
  cases hloading : loading c env r with
  | mk r₂ result =>
    rw [hloading] at hload
    cases result with
    | error e => cases hload
    | ok x =>
      obtain ⟨registry, found', v⟩ := x
      obtain ⟨rfl, hcount, hmanifest⟩ : found' = found ∧ v.megachunkCount = 0 ∧ v.manifest env.now = m := by
        simpa [Except.map] using hload
      exact ⟨r, r₂, registry, v, hboot, hloading, hcount, hmanifest⟩

theorem registry_of_loading (hcatalog : c.world.blockCatalog = "") {registry : Registry} {r₂ : Running} {v : World}
    (h : loading c env r = (r₂, .ok (registry, found, v))) : registry = .builtin := by
  obtain ⟨r₁, hopening, -⟩ := loading_ok h
  rw [opening, loadCatalog, if_pos hcatalog] at hopening
  dsimp only at hopening
  generalize openStorage c.location _ = opened at hopening
  obtain ⟨r₂, e₂ | u⟩ := opened <;> cases hopening
  rfl

theorem boot_homeConfig (backend : String) (env : Environment) (d : Disk) :
    ∃ r, boot (homeConfig backend) env d = some r ∧ r.disk = d ∧ r.log.options.dir = "" := ⟨_, rfl, rfl, rfl⟩

/-- Runs with these configurations end without error if their requests put blocks near the origin, and if the
place of the save is ready. -/
theorem exitCode_homeConfig (visits : List Visit) (hfound : found? (homeConfig backend) (environmentAt 5) d = some (.ok (found, 0, m)))
    (hputs : Puts visits)
    (htargets : ∀ v ∈ visits, ∀ p ∈ Http.putTarget? .builtin v.request, p.parent.parent ∈ home)
    (hfile : (homeConfig backend).location.backend = .file → Welcomes (homeConfig backend).location "zstd" d)
    (hnew : ∀ r, boot (homeConfig backend) (environmentAt 5) d = some r →
      (homeConfig backend).location.backend = .generations →
      NewIds ((opening (homeConfig backend) r).1.disk.store (homeConfig backend).location.path) (visits.length + 1)) :
    ∃ r r' w, boot (homeConfig backend) (environmentAt 5) d = some r
      ∧ stopping (homeConfig backend) (environmentAt 5) visits r = (r', .ok w)
      ∧ w.manifest (.ofUnix 5 0) = { m with megachunks := Int64.ofNat w.megachunkCount } ∧ w.megachunkCount ≤ 4
      ∧ (runLogged (homeConfig backend) (environmentAt 5) visits d).exitCode = 0 := by
  obtain ⟨r, r₂, registry, v, hboot, hloading, hcount, hmanifest⟩ := loading_of_found? hfound
  obtain rfl := registry_of_loading rfl hloading
  obtain ⟨r₀, -, -, -, hwrote⟩ := wrote_boot hboot
  obtain ⟨hproper, -, hid, -, hport⟩ := environmentAt_five
  obtain ⟨hexit, r', w, hstopping, hw⟩ := exitCode_of_home hboot hloading (within_of_megachunkCount home hcount) rfl
    hport htargets fun r' w hstopping => by
      obtain ⟨-, -, hready, registry, hresident⟩ := serving_stopping hwrote.settled hid hproper (hnew r hboot) hstopping
      cases hl : (homeConfig backend).location.backend with
      | file =>
        obtain ⟨r₁, hboot', hdisk', hdir⟩ := boot_homeConfig backend (environmentAt 5) d
        obtain rfl := Option.some.inj (hboot.symm.trans hboot')
        have hsame := (wrote_stopping_of_file hwrote.settled hl hputs hstopping).disk_eq hdir
        rw [hsame, hdisk', hresident.compression]
        exact hfile hl
      | generations => exact .generations hl (hready.isOpen hl)
  obtain ⟨hname, hseed, hcreated, hcompression⟩ := sameName_stopping hid hproper hloading hstopping
  refine ⟨r, r', w, hboot, hstopping, ?_, hw.megachunkCount_le, hexit⟩
  rw [← hmanifest, manifest, hname, hseed, hcreated, hcompression]
  rfl

end Home

/-- Puts a stone into the ground. -/
def stoneVisit : Visit := ⟨default, Http.stoneRequest "3"⟩

theorem isPut_stoneVisit : stoneVisit.request.IsPut
    ∧ Http.putTarget? .builtin stoneVisit.request = some ⟨3, 0, 0⟩
    ∧ ((Http.BlockBody.read stoneVisit.request.body).toOption.map fun b =>
      ((⟨b.x, b.y, b.z⟩ : Coord), (b.blockId .builtin).toOption)) = some (⟨3, 0, 0⟩, some stone) :=
  ⟨⟨rfl, by decide +kernel⟩, by decide +kernel⟩

/-- The disk of a save without megachunks. -/
def manifestDisk (text : String) : Disk :=
  ⟨(Files.empty.mkdirAll "data").1.put ["data", "world.zip"] (.archive (.ofList [(Manifest.entryName, text.toUTF8)])),
    []⟩

/-- A manifest with a time of creation that is 24 hours and 60 minutes ahead. -/
def farText : String :=
  "format: 1\nworld_id: 7f3c9a52-0000-4b1e-9d06-000000000001\ncreated_at: 2024-01-01T00:00:00+24:60\nmegachunks: 0\n"

theorem found?_homeConfig : ∀ backend ∈ ["zip", "badger"],
    (homeConfig backend).validate = .ok ()
      ∧ found? (homeConfig backend) (environmentAt 5) .empty
        = some (.ok (false, 0, ⟨1, "7f3c9a52-0000-4b1e-9d06-000000000001", 12345, .ofUnix 5 0, .ofUnix 5 0, 0,
            "zstd"⟩))
      ∧ ((boot (homeConfig backend) (environmentAt 5) .empty).map fun r =>
          let store := (opening (homeConfig backend) r).1.disk.store "data/badger"
          (store.database.pairs, store.started, decide (idsFrom store.started 2).Nodup)) = some ([], 0, true) := by
  decide +kernel

theorem newIds_homeConfig {backend : String} (hbackend : backend ∈ ["zip", "badger"])
    (hr : boot (homeConfig backend) (environmentAt 5) .empty = some r)
    (hl : (homeConfig backend).location.backend = .generations) :
    NewIds ((opening (homeConfig backend) r).1.disk.store (homeConfig backend).location.path) 2 := by
  have hpath : (homeConfig backend).location.path = "data/badger" := by
    rcases List.mem_pair.mp hbackend with rfl | rfl
    · cases hl
    · rfl
  have hstore := (found?_homeConfig backend hbackend).2.2
  rw [hr, Option.map_some, Option.some.injEq, Prod.mk.injEq, Prod.mk.injEq] at hstore
  rw [hpath]
  generalize (opening (homeConfig backend) r).1.disk.store "data/badger" = store at hstore
  obtain ⟨hempty, -, hdistinct⟩ := hstore
  exact ⟨Generations.fresh_of_empty (congrArg Entries.mk hempty) _, of_decide_eq_true hdistinct⟩

theorem keys_homeConfig : ∀ d ∈ [Disk.empty, manifestDisk farText],
    ((ArchiveWriter.create d.files "data/world.zip" "zstd").2.toOption.map fun out =>
        (d.files.mkdirAll (Text.folderOf "data/world.zip")).1.key? out.temp)
        = some (some ["data", ".world.zip-1000000000.tmp"])
      ∧ (((d.files.mkdirAll (Text.folderOf "data/world.zip")).1.find "data/world.zip").toOption.map fun found =>
        (found.1, found.2.any Node.isFolder)) = some (["data", "world.zip"], false)
      ∧ "data/world.zip".endsWith "/" = false := by
  decide +kernel

theorem welcomes_homeConfig {backend : String} (hbackend : backend ∈ ["zip", "badger"]) {d : Disk}
    (hd : d ∈ [Disk.empty, manifestDisk farText]) (hl : (homeConfig backend).location.backend = .file) :
    Welcomes (homeConfig backend).location "zstd" d := by
  obtain ⟨htemp, hkey, hend⟩ := keys_homeConfig d hd
  rcases List.mem_pair.mp hbackend with rfl | rfl
  · exact welcomes_of_keys rfl _ _ htemp hkey hend (by decide)
  · cases hl

/-- The stone is there when the run is told to stop. -/
theorem kind?_stoneVisit {backend : String}
    (h : stopping (homeConfig backend) (environmentAt 5) [stoneVisit] r = (r', .ok w)) :
    w.kind? ⟨3, 0, 0⟩ = some stone := by
  obtain ⟨r₃, registry, found, v, hstarting, -, rfl⟩ := stopping_ok h
  obtain ⟨r₂, u, hloading, -⟩ := starting_ok hstarting
  obtain rfl := registry_of_loading rfl hloading
  obtain ⟨hproper, -, hid, -⟩ := environmentAt_five
  have hresident := resident_starting hid hproper hstarting
  generalize (listen ((homeConfig backend).port (environmentAt 5).port) r₃).1 = r₄
  obtain ⟨l, hl⟩ : ∃ l, (homeConfig backend).location = l := ⟨_, rfl⟩
  rw [hl]
  have hsaver : ∀ f ∈ some (saver l), f.KeepsWorld := by
    rintro f ⟨⟩
    exact Http.keepsWorld_saver l
  obtain ⟨hput, htarget, hread⟩ := isPut_stoneVisit
  have heffect := Http.effect_serve (s := newService (homeConfig backend) .builtin v) hsaver
    ⟨hresident.regular.owned, hresident.faces⟩ stoneVisit.context r₄ stoneVisit.request
  have hstatus := (Http.status_serve_put (some (saver l)) stoneVisit.context
    (newService (homeConfig backend) .builtin v) r₄ hput).mpr (congrArg Option.isSome htarget)
  obtain ⟨b, kind, p, hbody, hkind, hp, -, hblock, -⟩ := heffect.of_put hresident.regular.owned hput hstatus
  rw [hbody] at hread
  obtain ⟨hposition, htype⟩ := Prod.mk.inj (Option.some.inj hread)
  have hkind' : b.blockId .builtin = .ok kind := hkind
  rw [hkind'] at htype
  rw [Option.some.inj htype, hp, hposition, if_neg (by decide)] at hblock
  have hworld : ([stoneVisit].foldl (answer l) (newService (homeConfig backend) .builtin v, r₄)).1.world
      = (Http.serve (some (saver l)) stoneVisit.context (newService (homeConfig backend) .builtin v) r₄
        stoneVisit.request).service.world.forgetEvents := rfl
  rw [hworld, kind?, (unchanged_forgetEvents _).storage.block?_eq]
  generalize World.block? _ _ = found at hblock
  cases found with
  | none => cases hblock
  | some cell => exact congrArg some (congrArg Content.kind (Option.some.inj hblock))

end BlockWorld.Program.Server
