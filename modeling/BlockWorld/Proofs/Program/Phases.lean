import BlockWorld.Proofs.Program.Running
/-!
The phases of a run of the server. It opens what the world is stored in (`opening`), loads the world
(`loading`), fills the chunks around the origin (`starting`), serves requests until it is told to stop
(`stopping`), and saves (`runConfig_ok`). Up to the moment when the world is loaded nothing on the disk
changes but logs (`spares_loading`).

How the proof goes. A run is one long computation that can stop at several points. Each phase is the part of
it up to one of these points, with the part before as its beginning, and the run is its last phase followed by
the save. One lemma for each phase says what it was that came before (`loading_ok`, `starting_ok`,
`stopping_ok`) and one how a run goes on from there (`runConfig_of_opened`, `runConfig_of_starting`), so that
no proof about runs has to open their definition again. For the disk, each piece is shown to write messages or
to open something (`wrote_boot`, `wrote_loadCatalog`, `wrote_loadWorld`, `wrote_fillSpawn`), and the pieces
are put together along the phases (`spares_opening`, `spares_loading`).
-/
namespace BlockWorld.Program.Server

open Save Disk Persistence Block

variable {c : Config} {env : Environment} {visits : List Visit} {r r' : Running}

/-! ## Phases -/

/-- Sets up the loggers of a run. -/
def boot (c : Config) (env : Environment) (d : Disk) : Option Running :=
  let log := (Log.Manager.initial d.files).configure (logOptions c)
  match log.applyLevels c.log.components with
  | .error _ => none
  | .ok log =>
    match log.setMain env.now "server" with
    | (_, .error _) => none
    | (log, .ok ()) => some ⟨log, d.stores, env.now, [], []⟩

/-- The first words of a run. -/
def greet (r : Running) : Running := r.say .info "🎮 Запуск воксельного сервера мира..."

/-- The last words of a run that ends without error. -/
def farewell (c : Config) (r : Running) : Running :=
  r.say .info ("👋 Мир сохранён в " ++ c.location.text ++ ", сервер остановлен")

/-- Reads the block types, and opens what the world is stored in. -/
def opening (c : Config) (r : Running) : Running × Except Failure Registry :=
  match loadCatalog c.world.blockCatalog (greet r) with
  | (r, .error e) => (r, .error e)
  | (r, .ok registry) =>
    match openStorage c.location (r.prepare "world") with
    | (r, .error e) => (r, .error e)
    | (r, .ok ()) => (r, .ok registry)

/-- The world of a run before anything is loaded. -/
def newWorld (c : Config) (env : Environment) : World :=
  .new c.world.seed env.worldId env.now c.storage.compression

/-- Also loads the world, and tells whether there was one. -/
def loading (c : Config) (env : Environment) (r : Running) :
    Running × Except Failure (Registry × Bool × World) :=
  match opening c r with
  | (r, .error e) => (r, .error e)
  | (r, .ok registry) =>
    match loadWorld c.location (newWorld c env) r with
    | (r, .error e) => (r, .error e)
    | (r, .ok (found, w)) => (r, .ok (registry, found, w))

/-- Also fills the chunks around the origin: the run is about to serve. -/
def starting (c : Config) (env : Environment) (r : Running) :
    Running × Except Failure (Registry × Bool × World) :=
  match loading c env r with
  | (r, .error e) => (r, .error e)
  | (r, .ok (registry, found, w)) =>
    let (r, w) := fillSpawn c.world.spawnRadius w (announce c.location found w r)
    (r, .ok (registry, found, w))

/-- Also answers requests until the signal to stop: the run is about to save the world. -/
def stopping (c : Config) (env : Environment) (visits : List Visit) (r : Running) :
    Running × Except Failure World :=
  match starting c env r with
  | (r, .error e) => (r, .error e)
  | (r, .ok (registry, _, w)) =>
    match listen (c.port env.port) r with
    | (r, .error e) => (r, .error e)
    | (r, .ok ()) =>
      let service := .new w registry c.server.maxRaycastDistance c.server.maxCollideExtent
      let (service, r) := visits.foldl (answer c.location) (service, r)
      (r.say .info "📡 Получен сигнал terminated, завершение работы...", .ok service.world)

/-- How a run ends. -/
def report : Running × Except Failure Unit → Ending
  | (r, .ok ()) => r.ending 0 []
  | (r, .error e) =>
    if Fault.isBreakdown e then r.ending breakdownCode [breakdownLine e]
    else (r.say .error ("❌ " ++ e.message)).ending 1 []

theorem runLogged_of_boot {d : Disk} (h : boot c env d = some r) :
    runLogged c env visits d = report (runConfig c env visits r) := by
  rw [boot] at h
  rw [runLogged]
  dsimp only at h ⊢
  generalize ((Log.Manager.initial d.files).configure (logOptions c)).applyLevels _ = levels at h
  cases levels with
  | error e => cases h
  | ok log =>
    dsimp only at h ⊢
    generalize log.setMain env.now "server" = opened at h
    obtain ⟨log', e | u⟩ := opened
    · cases h
    · cases h
      rfl

theorem runConfig_of_not_opened {e : Failure} (h : opening c r = (r', .error e)) :
    runConfig c env visits r = (r', .error e) := by
  rw [opening, greet] at h
  rw [runConfig]
  dsimp only
  generalize loadCatalog c.world.blockCatalog _ = catalog at h
  obtain ⟨r₁, e₁ | registry⟩ := catalog
  · cases h
    rfl
  · dsimp only at h ⊢
    generalize openStorage c.location _ = opened at h
    obtain ⟨r₂, e₂ | u⟩ := opened
    · cases h
      rfl
    · cases h

theorem runConfig_of_opened {registry : Registry} (h : opening c r = (r', .ok registry)) :
    runConfig c env visits r
      = (closeStorage c.location (runWorld c env registry visits (newWorld c env) r').1,
        (runWorld c env registry visits (newWorld c env) r').2) := by
  rw [opening, greet] at h
  rw [runConfig]
  dsimp only
  generalize loadCatalog c.world.blockCatalog _ = catalog at h
  obtain ⟨r₁, e₁ | registry⟩ := catalog
  · cases h
  · dsimp only at h ⊢
    generalize openStorage c.location _ = opened at h
    obtain ⟨r₂, e₂ | u⟩ := opened
    · cases h
    · cases h
      rfl

/-- A run that does not load its world ends there. -/
theorem runConfig_of_not_loaded {e : Failure} (h : (loading c env r).2 = .error e) :
    (runConfig c env visits r).2 = .error e
      ∧ ((runConfig c env visits r).1 = (loading c env r).1
        ∨ (runConfig c env visits r).1 = closeStorage c.location (loading c env r).1) := by
  rw [loading] at h ⊢
  cases hopening : opening c r with
  | mk r₁ result =>
    rw [hopening] at h
    cases result with
    | error e₁ =>
      cases h
      rw [runConfig_of_not_opened hopening]
      exact ⟨rfl, .inl rfl⟩
    | ok registry =>
      rw [runConfig_of_opened hopening, runWorld]
      dsimp only at h ⊢
      generalize loadWorld c.location (newWorld c env) r₁ = loaded at h
      obtain ⟨r₂, e₂ | ⟨found, v⟩⟩ := loaded
      · cases h
        exact ⟨rfl, .inr rfl⟩
      · cases h

/-- What a run has loaded when it has got so far. -/
theorem loading_ok {registry : Registry} {found : Bool} {w : World}
    (h : loading c env r = (r', .ok (registry, found, w))) :
    ∃ r₁, opening c r = (r₁, .ok registry)
      ∧ loadWorld c.location (newWorld c env) r₁ = (r', .ok (found, w)) := by
  rw [loading] at h
  generalize opening c r = opened at h
  obtain ⟨r₁, e₁ | registry'⟩ := opened
  · cases h
  · dsimp only at h
    refine ⟨r₁, ?_⟩
    generalize loadWorld c.location (newWorld c env) r₁ = loaded at h
    obtain ⟨r₂, e₂ | ⟨found', v⟩⟩ := loaded <;> cases h
    exact ⟨rfl, rfl⟩

theorem loading_of_opening {registry : Registry} {found : Bool} {w : World} {r₁ : Running}
    (h : opening c r = (r₁, .ok registry))
    (hload : loadWorld c.location (newWorld c env) r₁ = (r', .ok (found, w))) :
    loading c env r = (r', .ok (registry, found, w)) := by
  rw [loading, h]
  dsimp only
  rw [hload]

theorem starting_ok {registry : Registry} {found : Bool} {w : World}
    (h : starting c env r = (r', .ok (registry, found, w))) :
    ∃ r₂ v, loading c env r = (r₂, .ok (registry, found, v))
      ∧ fillSpawn c.world.spawnRadius v (announce c.location found v r₂) = (r', w) := by
  rw [starting] at h
  generalize loading c env r = loaded at h
  obtain ⟨r₂, e₂ | ⟨registry', found', v⟩⟩ := loaded <;> cases h
  exact ⟨r₂, v, rfl, rfl⟩

theorem starting_of_loading {registry : Registry} {found : Bool} {v : World}
    (h : loading c env r = (r', .ok (registry, found, v))) :
    starting c env r
      = ((fillSpawn c.world.spawnRadius v (announce c.location found v r')).1,
        .ok (registry, found,
          (fillSpawn c.world.spawnRadius v (announce c.location found v r')).2)) := by
  rw [starting, h]

/-- Only loading can fail before the run serves. -/
theorem loading_of_not_started {e : Failure} (h : starting c env r = (r', .error e)) :
    (loading c env r).2 = .error e := by
  cases hloading : loading c env r with
  | mk r₂ result =>
    cases result with
    | error e' =>
      rw [starting, hloading] at h
      cases h
      rfl
    | ok loaded =>
      rw [starting_of_loading hloading] at h
      cases h

/-- A run that has started serves the world that it has. -/
theorem runConfig_of_starting {registry : Registry} {found : Bool} {w : World}
    (h : starting c env r = (r', .ok (registry, found, w))) :
    runConfig c env visits r
      = (closeStorage c.location (serve c (c.port env.port) registry visits w r').1,
        (serve c (c.port env.port) registry visits w r').2) := by
  obtain ⟨r₂, v, hloading, hfill⟩ := starting_ok h
  obtain ⟨r₁, hopening, hload⟩ := loading_ok hloading
  rw [runConfig_of_opened hopening, runWorld, hload]
  dsimp only
  rw [hfill]

/-- A run without error comes to the signal to stop, and then saves the world. -/
theorem runConfig_ok (h : (runConfig c env visits r).2 = .ok ()) :
    ∃ r' w, stopping c env visits r = (r', .ok w)
      ∧ (saveWorld c.location w r').2.2 = .ok ()
      ∧ (runConfig c env visits r).1
        = closeStorage c.location (farewell c (saveWorld c.location w r').1) := by
  cases hstarting : starting c env r with
  | mk r₃ result =>
    cases result with
    | error e =>
      rw [(runConfig_of_not_loaded (loading_of_not_started hstarting)).1] at h
      cases h
    | ok started =>
      obtain ⟨registry, found, w⟩ := started
      rw [runConfig_of_starting hstarting, serve] at h ⊢
      rw [stopping, hstarting]
      dsimp only at h ⊢
      generalize listen (c.port env.port) r₃ = listening at h
      obtain ⟨r₄, e₄ | u⟩ := listening
      · cases h
      · dsimp only at h ⊢
        generalize visits.foldl (answer c.location) _ = served at h
        obtain ⟨service, r₅⟩ := served
        dsimp only at h ⊢
        refine ⟨_, _, rfl, ?_⟩
        generalize saveWorld c.location service.world _ = saved at h
        obtain ⟨r₆, v₆, e₆ | u⟩ := saved
        · cases h
        · exact ⟨rfl, rfl⟩

/-- The service of a run when it starts to serve. -/
def newService (c : Config) (registry : Registry) (w : World) : Http.Service :=
  .new w registry c.server.maxRaycastDistance c.server.maxCollideExtent

theorem stopping_ok {w : World} (h : stopping c env visits r = (r', .ok w)) :
    ∃ r₃ registry found v, starting c env r = (r₃, .ok (registry, found, v))
      ∧ r' = (visits.foldl (answer c.location)
          (newService c registry v, (listen (c.port env.port) r₃).1)).2.say
            .info "📡 Получен сигнал terminated, завершение работы..."
      ∧ w = (visits.foldl (answer c.location)
          (newService c registry v, (listen (c.port env.port) r₃).1)).1.world := by
  rw [stopping] at h
  generalize starting c env r = started at h
  obtain ⟨r₃, e₃ | ⟨registry, found, v⟩⟩ := started
  · cases h
  · refine ⟨r₃, registry, found, v, rfl, ?_⟩
    dsimp only at h
    generalize listen (c.port env.port) r₃ = listening at h
    obtain ⟨r₄, e₄ | u⟩ := listening <;> cases h
    exact ⟨rfl, rfl⟩

/-! ## What the phases write -/

open Running

/-- The loggers write to the logs of the run only, and nothing else has been done. -/
theorem wrote_boot {d : Disk} (h : boot c env d = some r) :
    ∃ r₀ : Running, r₀.disk = d ∧ r₀.now = env.now
      ∧ r₀.IsLog = Log.IsJournal c.log.dir env.now ∧ r₀.Wrote r := by
  obtain ⟨log, hlog⟩ : ∃ log, (Log.Manager.initial d.files).configure (logOptions c) = log := ⟨_, rfl⟩
  have hsettled := Log.Manager.settled_initial d.files (logOptions c) env.now
  refine ⟨⟨log, d.stores, env.now, [], []⟩, hlog ▸ rfl, rfl, hlog ▸ rfl, ?_⟩
  rw [boot] at h
  rw [hlog] at h hsettled
  cases happly : log.applyLevels c.log.components with
  | error e =>
    rw [happly] at h
    cases h
  | ok log₁ =>
    rw [happly] at h
    have hlevels := Log.Manager.Wrote.applyLevels hsettled happly
    have hname : "server" ∈ Log.logNames := by decide
    have hmain := hlevels.trans (.setMain hname hlevels.settled)
    dsimp only at h
    generalize log₁.setMain env.now "server" = opened at h hmain
    obtain ⟨log₂, e | u⟩ := opened <;> cases h
    exact ⟨hmain, rfl, rfl⟩

theorem wrote_greet (hr : r.Settled) : r.Wrote (greet r) := .say hr _ _

theorem wrote_loadCatalog (hr : r.Settled) (path : String) : r.Wrote (loadCatalog path r).1 := by
  rw [loadCatalog]
  split
  · exact .refl hr
  · split
    · exact .refl hr
    · split
      · exact .refl hr
      · exact .say hr _ _

/-- The run when its storage is to be opened. -/
theorem wrote_prepare_world (hr : r.Settled) (c : Config) :
    r.Wrote ((loadCatalog c.world.blockCatalog (greet r)).1.prepare "world") := by
  have hread := (wrote_greet hr).trans
    (wrote_loadCatalog (wrote_greet hr).settled c.world.blockCatalog)
  exact hread.trans (.prepare hread.settled "world")

theorem spares_opening (hr : r.Settled) (c : Config) : r.Spares (opening c r).1 := by
  have hread := (wrote_greet hr).trans
    (wrote_loadCatalog (wrote_greet hr).settled c.world.blockCatalog)
  have hprepared := wrote_prepare_world hr c
  rw [opening]
  generalize loadCatalog c.world.blockCatalog (greet r) = catalog at hread hprepared
  obtain ⟨r₁, e₁ | registry⟩ := catalog
  · exact .of_wrote hread
  · have hopened := (Spares.of_wrote hprepared).trans (.openStorage hprepared.settled c.location)
    dsimp only at hopened ⊢
    generalize openStorage c.location (r₁.prepare "world") = opened at hopened
    obtain ⟨r₂, e₂ | u⟩ := opened <;> exact hopened

/-- A run that has opened its storage can save. -/
theorem ready_opening (hr : r.Settled) {registry : Registry} (h : opening c r = (r', .ok registry)) {n : Nat}
    (hnew : c.location.backend = .generations → NewIds (r'.disk.store c.location.path) n) :
    Ready c.location r'.disk n := by
  have hprepared := wrote_prepare_world hr c
  rw [opening] at h
  generalize loadCatalog c.world.blockCatalog (greet r) = catalog at h hprepared
  obtain ⟨r₁, e₁ | registry'⟩ := catalog
  · cases h
  · dsimp only at h hprepared
    cases hopen : openStorage c.location (r₁.prepare "world") with
    | mk r₂ result =>
      rw [hopen] at h
      cases result <;> cases h
      have hready := ready_openStorage (l := c.location) (n := n) hprepared.settled (by rw [hopen])
      rw [hopen] at hready
      exact hready hnew

theorem wrote_loadWorld (hr : r.Settled) (l : Location) (w : World) :
    r.Wrote (loadWorld l w r).1 := by
  rw [loadWorld]
  generalize load l w r.disk = loaded
  obtain ⟨result, v⟩ := loaded
  have htold := Wrote.tellWorld hr v
  dsimp only
  split <;> exact htold

theorem spares_loading (hr : r.Settled) (c : Config) (env : Environment) :
    r.Spares (loading c env r).1 := by
  have hopened := spares_opening hr c
  rw [loading]
  generalize opening c r = opened at hopened
  obtain ⟨r₁, e₁ | registry⟩ := opened
  · exact hopened
  · have hloaded := hopened.trans
      (.of_wrote (wrote_loadWorld hopened.settled c.location (newWorld c env)))
    dsimp only at hloaded ⊢
    generalize loadWorld c.location (newWorld c env) r₁ = loaded at hloaded
    obtain ⟨r₂, e₂ | ⟨found, v⟩⟩ := loaded <;> exact hloaded

theorem wrote_announce (hr : r.Settled) (l : Location) (found : Bool) (w : World) :
    r.Wrote (announce l found w r) := by
  rw [announce]
  split <;> exact .say hr _ _

theorem wrote_fillSpawn (hr : r.Settled) (radius : Int64) (w : World) :
    r.Wrote (fillSpawn radius w r).1 := by
  have hprepared := Wrote.prepare hr "terrain"
  have htold := hprepared.trans (.tellWorld hprepared.settled
    (Terrain.generateSpawn .world (Terrain.Generator.ofSeed w.seed).landscape radius w).target)
  exact htold.trans (.tell htold.settled "terrain" _)

theorem wrote_listen (hr : r.Settled) (port : Int64) : r.Wrote (listen port r).1 := by
  have hprepared := Wrote.prepare hr "http"
  have htold := hprepared.trans
    (.tell hprepared.settled "http" [Http.listening (":" ++ Text.integer port)])
  have hready := htold.trans (.say htold.settled .info "✅ Сервер готов")
  have hapi := hready.trans
    (.say hready.settled .info ("   🌐 HTTP API: http://localhost" ++ (":" ++ Text.integer port)))
  rw [listen]
  split <;> exact hapi.trans (.say hapi.settled _ _)

/-- A run that does not load its world changes nothing but logs. -/
theorem spares_of_not_loaded (hr : r.Settled) {e : Failure} (h : (loading c env r).2 = .error e) :
    r.Spares (runConfig c env visits r).1 := by
  have hloaded := spares_loading hr c env
  obtain ⟨-, hend | hend⟩ : _ ∧ (_ ∨ (runConfig c env visits r).1 = _) := runConfig_of_not_loaded h
  · rw [hend]
    exact hloaded
  · rw [hend]
    exact hloaded.trans (.closeStorage hloaded.settled c.location)

end BlockWorld.Program.Server
