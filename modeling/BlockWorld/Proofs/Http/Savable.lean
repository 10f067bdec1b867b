import BlockWorld.Program.Server
import BlockWorld.Proofs.World.Savable
/-!
What requests do to a world that can be saved. A request leaves the coordinates of the megachunks as
they are, unless it puts a block into a megachunk that is not there (`leaves_serve`). Any position of
64 bits is taken, but a header has only three bytes for a coordinate, so a run of requests leaves the
world savable if and only if no block went too far out (`serveAll_savable_iff`).

How the proof goes. Only coordinates of megachunks matter, and `Leaves` says of a request which of them it
adds: none, or the one of the position at which it puts a block. There is one lemma for each route, as for
effects, and `leaves_serve` for all of them. The run is by induction on the requests (`label_serveAll`); then
the world can be saved if and only if all that was added fits into headers (`World.savable_of_claims`). A save
that is requested on the way leaves the megachunks in place (`keepsMegachunks_saver`).

The counterexample is at the border: a block in the last megachunk that fits can be saved
(`serveAll_savable_iff_last`), and one position further the world cannot be saved any more
(`serve_put_leaves_unsavable`).
-/
namespace BlockWorld.Http

open Grid Block Save World

/-- The position at which a request puts a block. A request that is refused puts none. -/
def putTarget? (registry : Registry) (r : Request) : Option Coord :=
  if r.method = "PUT" ∧ r.path = "/api/block" then
    match BlockBody.read r.body with
    | .error _ => none
    | .ok b =>
      match b.blockId registry with
      | .error _ => none
      | .ok _ => some ⟨b.x, b.y, b.z⟩
  else none

/-- A way to save that leaves the megachunks of the world in place. -/
def Saver.KeepsMegachunks {σ : Type} (saver : Saver σ) : Prop :=
  ∀ w store, (saver w store).2.1.megachunks = w.megachunks

/-- The service and what belongs to its saver after some requests. -/
def serveAll {σ : Type} (saver : Option (Saver σ)) (visits : List (Context × Request))
    (state : Service × σ) : Service × σ :=
  visits.foldl (fun state v =>
    let served := serve saver v.1 state.1 state.2 v.2
    (served.service, served.store)) state

/-! ## Routes -/

/-- A route is found by its own method and path. -/
theorem Route.find?_eq_some_iff (method path : String) (route : Route) :
    Route.find? method path = some route ↔ route.method = method ∧ route.path = path := by
  constructor
  · intro h
    have hroute := List.find?_some h
    simpa only [Bool.and_eq_true, beq_iff_eq] using hroute
  · rintro ⟨rfl, rfl⟩
    cases route <;> decide

theorem Route.find?_eq_putBlock_iff (method path : String) :
    Route.find? method path = some .putBlock ↔ method = "PUT" ∧ path = "/api/block" := by
  rw [Route.find?_eq_some_iff]
  exact and_congr eq_comm eq_comm

/-- The service that a request finds and leaves: the same block types, and the labels of the
megachunks with those added that were made. -/
structure Leaves (s s' : Service) (made : Option Coord) : Prop where
  registry : s'.registry = s.registry
  labels : s'.world.label = (made.map (·.parent.parent)).toList.foldl claim s.world.label

section Handlers

variable (s : Service) (r : Request)

theorem leaves_self : Leaves s s none := ⟨rfl, rfl⟩

theorem leaves_blockJson (p : Coord) : Leaves s (blockJson s p).2 none := by
  unfold blockJson
  cases s.world.block? p with
  | none => exact leaves_self s
  | some b => exact ⟨rfl, label_visibleFaces s.world s.registry p⟩

theorem leaves_getBlock : Leaves s (getBlock s r).2 none := by
  unfold getBlock
  cases queryCoord r with
  | error message => exact leaves_self s
  | ok p => exact leaves_blockJson s p

theorem leaves_dig : Leaves s (dig s r).2 none := by
  unfold dig
  cases DigBody.read r.body with
  | error e => exact leaves_self s
  | ok b =>
    dsimp only
    split
    · exact leaves_self s
    · obtain ⟨hregistry, hlabels⟩ := leaves_blockJson
        { s with world := (s.world.damageBlock s.registry ⟨b.x, b.y, b.z⟩ b.amount).2 }
        ⟨b.x, b.y, b.z⟩
      exact ⟨hregistry, hlabels.trans (label_damageBlock ..)⟩

theorem leaves_raycast : Leaves s (raycast s r).2 none := by
  unfold raycast
  cases RayBody.read r.body with
  | error e => exact leaves_self s
  | ok b =>
    dsimp only
    split
    · exact leaves_self s
    · exact ⟨rfl, label_raycast ..⟩

theorem leaves_collide : Leaves s (collide s r).2 none := by
  unfold collide
  cases BoxBody.read r.body with
  | error e => exact leaves_self s
  | ok b =>
    dsimp only
    split
    · exact leaves_self s
    · exact ⟨rfl, rfl⟩

/-- A request to put a block is answered with success exactly if it puts one. -/
theorem putBlock_spec (hr : r.method = "PUT" ∧ r.path = "/api/block") :
    Leaves s (putBlock s r).2 (putTarget? s.registry r)
      ∧ ((putBlock s r).1.status = 200 ↔ (putTarget? s.registry r).isSome = true) := by
  unfold putBlock putTarget?
  rw [if_pos hr]
  cases BlockBody.read r.body with
  | error e => exact ⟨leaves_self s, by simp [Answer.badRequest, Answer.failure, Answer.report]⟩
  | ok b =>
    dsimp only
    cases b.blockId s.registry with
    | error message =>
      exact ⟨leaves_self s, by simp [Answer.badRequest, Answer.failure, Answer.report]⟩
    | ok id =>
      have hleaves := leaves_blockJson { s with world := s.world.setBlock ⟨b.x, b.y, b.z⟩ id }
        ⟨b.x, b.y, b.z⟩
      dsimp only
      generalize blockJson { s with world := s.world.setBlock ⟨b.x, b.y, b.z⟩ id }
        ⟨b.x, b.y, b.z⟩ = out at hleaves ⊢
      obtain ⟨hregistry, hlabels⟩ := hleaves
      simp only [Option.map_none, Option.toList_none, List.foldl_nil, label_setBlock] at hlabels
      exact ⟨⟨hregistry, hlabels⟩, by simp [Answer.success, Answer.report]⟩

end Handlers

section Serve

variable {σ : Type} {saver : Option (Saver σ)}

theorem leaves_save (hsaver : ∀ f ∈ saver, f.KeepsMegachunks) (s : Service) (store : σ) :
    Leaves s (save saver s store).service none := by
  unfold save
  cases saver with
  | none => exact leaves_self s
  | some f =>
    have hkeeps := hsaver f rfl s.world store
    dsimp only
    split <;> rename_i hrun <;> rw [hrun] at hkeeps <;> exact ⟨rfl, label_of_megachunks hkeeps⟩

theorem leaves_handle (hsaver : ∀ f ∈ saver, f.KeepsMegachunks) (route : Route) (ctx : Context)
    (s : Service) (store : σ) (r : Request) (hfound : Route.find? r.method r.path = some route) :
    Leaves s (route.handle saver ctx s store r).service (putTarget? s.registry r) := by
  by_cases hroute : route = .putBlock
  · subst hroute
    exact (putBlock_spec s r ((Route.find?_eq_putBlock_iff ..).mp hfound)).1
  · have hnone : putTarget? s.registry r = none := by
      refine if_neg fun hput => hroute ?_
      rw [(Route.find?_eq_putBlock_iff ..).mpr hput] at hfound
      exact (Option.some.inj hfound).symm
    rw [hnone]
    cases route with
    | putBlock => exact absurd rfl hroute
    | getBlock => exact leaves_getBlock s r
    | dig => exact leaves_dig s r
    | raycast => exact leaves_raycast s r
    | collide => exact leaves_collide s r
    | save => exact leaves_save hsaver s store
    | chunk => exact leaves_self s
    | health => exact leaves_self s
    | metrics => exact leaves_self s

theorem putTarget?_of_not_found {registry : Registry} {r : Request}
    (h : Route.find? r.method r.path = none) : putTarget? registry r = none := by
  refine if_neg fun hput => ?_
  rw [(Route.find?_eq_putBlock_iff ..).mpr hput] at h
  cases h

theorem leaves_answer (hsaver : ∀ f ∈ saver, f.KeepsMegachunks) (ctx : Context) (s : Service)
    (store : σ) (r : Request) :
    Leaves s (answer saver ctx s store r).service (putTarget? s.registry r) := by
  unfold answer
  cases hfound : Route.find? r.method r.path with
  | none =>
    rw [putTarget?_of_not_found hfound]
    exact ⟨rfl, rfl⟩
  | some route =>
    have hleaves := leaves_handle hsaver route ctx s store r hfound
    dsimp only
    cases (route.handle saver ctx s store r).answer with
    | none => exact hleaves
    | some a => exact ⟨hleaves.registry, hleaves.labels⟩

/-- A request without a method asks to get something, and so puts no block. -/
theorem putTarget?_normal (registry : Registry) (r : Request) :
    putTarget? registry (if r.method = "" then { r with method := "GET" } else r)
      = putTarget? registry r := by
  split
  · rename_i hempty
    rw [putTarget?, if_neg (by simp), putTarget?, if_neg (by simp [hempty])]
  · rfl

/-- What one request does. -/
theorem leaves_serve (hsaver : ∀ f ∈ saver, f.KeepsMegachunks) (ctx : Context) (s : Service)
    (store : σ) (r : Request) :
    Leaves s (serve saver ctx s store r).service (putTarget? s.registry r) := by
  rw [← putTarget?_normal, serve]
  split
  · rename_i hfound _
    rw [putTarget?_of_not_found hfound]
    exact leaves_self s
  · exact leaves_answer hsaver ctx s store _

/-- What requests to put a block are answered. -/
theorem status_serve_put (saver : Option (Saver σ)) (ctx : Context) (s : Service) (store : σ)
    {r : Request} (hr : r.method = "PUT" ∧ r.path = "/api/block") :
    (serve saver ctx s store r).reply.status = 200
      ↔ (putTarget? s.registry r).isSome = true := by
  have hfound : Route.find? r.method r.path = some .putBlock :=
    (Route.find?_eq_putBlock_iff ..).mpr hr
  have hmethod : ¬r.method = "" := by simp [hr.1]
  rw [serve, if_neg hmethod]
  simp only [hfound, answer]
  exact (putBlock_spec s r hr).2

/-- Putting a block does not save. -/
theorem store_serve_put (saver : Option (Saver σ)) (ctx : Context) (s : Service) (store : σ)
    {r : Request} (hr : r.method = "PUT" ∧ r.path = "/api/block") :
    (serve saver ctx s store r).store = store := by
  have hfound : Route.find? r.method r.path = some .putBlock :=
    (Route.find?_eq_putBlock_iff ..).mpr hr
  have hmethod : ¬r.method = "" := by simp [hr.1]
  rw [serve, if_neg hmethod]
  simp only [hfound, answer]
  split <;> rfl

/-- What a run of requests does. -/
theorem label_serveAll (hsaver : ∀ f ∈ saver, f.KeepsMegachunks)
    (visits : List (Context × Request)) (s : Service) (store : σ) :
    (serveAll saver visits (s, store)).1.world.label
      = (visits.filterMap fun v => (putTarget? s.registry v.2).map (·.parent.parent)).foldl claim
          s.world.label := by
  induction visits generalizing s store with
  | nil => rfl
  | cons v visits ih =>
    obtain ⟨hregistry, hlabels⟩ := leaves_serve hsaver v.1 s store v.2
    have hrest := ih (serve saver v.1 s store v.2).service (serve saver v.1 s store v.2).store
    rw [hregistry, hlabels] at hrest
    change (serveAll saver visits _).1.world.label = _
    rw [hrest]
    cases h : putTarget? s.registry v.2 <;> simp [h]

end Serve

/-- Requests to a service whose world can be saved. Whatever the saver does, as long as it leaves the
megachunks in place, the world can be saved after any run of requests if and only if every request
that put a block, and was answered with success, put it into a megachunk that was there from the
start or whose coordinates have magnitudes of at most three bytes. -/
theorem serveAll_savable_iff {σ : Type} {saver : Option (Saver σ)}
    (hsaver : ∀ f ∈ saver, f.KeepsMegachunks) {s : Service} (hs : s.world.Savable) (store : σ)
    (visits : List (Context × Request)) :
    ((serveAll saver visits (s, store)).1.world.Savable
        ↔ ∀ v ∈ visits, ∀ p, putTarget? s.registry v.2 = some p →
          p.parent.parent.InRange ∨ p.parent.parent ∈ s.world.coords)
      ∧ ∀ (t : Service) (ctx : Context) (r : Request), t.registry = s.registry →
        r.method = "PUT" → r.path = "/api/block" →
        ((serve saver ctx t store r).reply.status = 200
          ↔ (putTarget? s.registry r).isSome = true) := by
  refine ⟨?_, fun t ctx r ht hmethod hpath => ?_⟩
  · have hlabel := label_serveAll hsaver visits s store
    rw [savable_of_claims hs hlabel]
    · simp only [List.mem_filterMap, Option.map_eq_some_iff]
      constructor
      · intro h v hv p hp
        exact h _ ⟨v, hv, p, hp, rfl⟩
      · rintro h m ⟨v, hv, p, hp, rfl⟩
        exact h v hv p hp
    · intro m hm
      simp only [List.mem_filterMap, Option.map_eq_some_iff] at hm
      obtain ⟨v, hv, p, hp, rfl⟩ := hm
      exact p.parent.negatable_parent
  · rw [← ht]
    exact status_serve_put saver ctx t store ⟨hmethod, hpath⟩

/-! ## The server -/

theorem save_megachunks (sink : Sink Disk.OpenSink) (l : Location) (id : String)
    (savedAt : Data.Timestamp) (w : World) (d : Disk) :
    (Program.Persistence.save sink l id savedAt w d).world.megachunks = w.megachunks := by
  unfold Program.Persistence.save
  split
  · rfl
  · rename_i out _
    have hkept := w.saveTo_megachunks savedAt sink out
    split <;> rename_i hrun <;> rw [hrun] at hkept <;> exact hkept

theorem keepsMegachunks_saver (l : Location) :
    Saver.KeepsMegachunks (Program.Server.saver l) := by
  intro w r
  have hkept := save_megachunks Disk.OpenSink.sink l (Program.Persistence.nextId l r.disk) r.now w
    r.disk
  unfold Program.Server.saver
  split <;> rename_i hrun <;> rw [Program.Server.saveWorld, Prod.mk.injEq, Prod.mk.injEq] at hrun
  all_goals
    rw [← hrun.2.1]
    exact hkept

/-- A request to put a block of stone on the first axis. -/
def stoneRequest (x : String) : Request :=
  ⟨"PUT", ⟨[], [], none, "/api/block".toUTF8.toList, none⟩, [],
    "\x7b\"x\": " ++ x ++ ", \"type\": 1\x7d"⟩

/-- A request to save the world. -/
def saveRequest : Request := ⟨"POST", ⟨[], [], none, "/api/save".toUTF8.toList, none⟩, [], ""⟩

/-- The service of a new world. -/
def newService : Service := ⟨.new 1 "" .zero "", .builtin, 256, 64, .empty⟩

theorem savable_newService : newService.world.Savable := by
  rw [savable_iff_entries]
  intro c hc
  rw [mem_coords] at hc
  simp [newService] at hc

/-- The last position on the first axis whose megachunk fits into a header. The server puts a block
there, saves, and can save again. -/
theorem serveAll_savable_iff_last :
    newService.world.Savable
      ∧ (serveAll (some (Program.Server.saver ⟨.file, "world.zip"⟩))
          [(default, stoneRequest "4294967295"), (default, saveRequest)]
          (newService, ⟨.initial .empty, [], .zero, [], []⟩)).1.world.Savable := by
  refine ⟨savable_newService, (serveAll_savable_iff (fun f hf => ?_) savable_newService _ _).1.mpr ?_⟩
  · obtain rfl := Option.some.inj hf
    exact keepsMegachunks_saver _
  · have hput : putTarget? .builtin (stoneRequest "4294967295") = some ⟨4294967295, 0, 0⟩ := by
      decide +kernel
    have hsave : putTarget? .builtin saveRequest = none := by decide +kernel
    intro v hv p hp
    rcases List.mem_pair.mp hv with rfl | rfl
    · obtain rfl := Option.some.inj (hput.symm.trans hp)
      exact .inl (by decide)
    · cases hsave.symm.trans hp

/-- One position further the block is taken all the same, and from then on the world cannot be
saved. -/
theorem serve_put_leaves_unsavable :
    let served := serve (none : Option (Saver Unit)) default newService ()
      (stoneRequest "4294967296")
    newService.world.Savable ∧ served.reply.status = 200 ∧ ¬served.service.world.Savable := by
  have hput : putTarget? newService.registry (stoneRequest "4294967296")
      = some ⟨4294967296, 0, 0⟩ := by
    decide +kernel
  refine ⟨savable_newService, ?_, fun hafter => ?_⟩
  · refine (status_serve_put none default newService () ⟨rfl, by decide +kernel⟩).mpr ?_
    rw [hput]
    rfl
  · have hsaver : ∀ f ∈ (none : Option (Saver Unit)), f.KeepsMegachunks := by simp
    obtain ⟨-, hlabels⟩ := leaves_serve hsaver default newService () (stoneRequest "4294967296")
    rw [hput] at hlabels
    have hmade := (savable_of_claims savable_newService hlabels fun m hm => ?_).mp hafter
      ⟨16777216, 0, 0⟩ (by decide)
    · rcases hmade with hrange | hold
      · exact absurd hrange (by decide)
      · rw [mem_coords] at hold
        simp [newService] at hold
    · obtain rfl := List.mem_singleton.mp hm
      exact Coord.negatable_parent _

end BlockWorld.Http
