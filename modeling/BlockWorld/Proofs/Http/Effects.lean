import BlockWorld.Proofs.Http.Savable
import BlockWorld.Proofs.World.Looking
/-!
What requests do to the served world. A request to put a block or to dig that is answered with success
changes the block at its position, and its answer shows the block as it is afterwards. Every other
request, and every one that is refused, only looks (`effect_serve`).

How the proof goes. `Effect` says what one request can do, with a case for each of the two changes and one for
all that only looks. Each route has a lemma that its handler has such an effect (`effect_putBlock`,
`effect_dig`, `effect_getBlock`, `effect_raycast`, `effect_collide`, `glance_save`), and `effect_serve` is
their sum: a request whose route is not found, or whose body is refused, only looks. What the two changes do
to single blocks is then read off the effect (`Effect.of_put`, `Effect.of_dig`), for services whose world is
owned and remembers no wrong face (`Service.Sound`). Every service that a server can come to is one of these,
by induction on how it was reached (`Reached.sound`).
-/
namespace BlockWorld.Http

open Grid Block World Data

/-! ## Routes -/

/-- A request to put a block. -/
def Request.IsPut (r : Request) : Prop := r.method = "PUT" ∧ r.path = "/api/block"

/-- A request to dig. -/
def Request.IsDig (r : Request) : Prop := r.method = "POST" ∧ r.path = "/api/dig"

theorem Request.IsPut.find? {r : Request} (h : r.IsPut) :
    Route.find? r.method r.path = some .putBlock :=
  (Route.find?_eq_some_iff ..).mpr ⟨h.1.symm, h.2.symm⟩

theorem Request.IsDig.find? {r : Request} (h : r.IsDig) :
    Route.find? r.method r.path = some .dig :=
  (Route.find?_eq_some_iff ..).mpr ⟨h.1.symm, h.2.symm⟩

/-! ## What answers show -/

/-- The block at a position as answers show it, with its faces computed afresh. -/
def shownBlock (registry : Registry) (w : World) (p : Coord) : Json :=
  let fields (kind : BlockId) (name : String) (damage : Float32) : Json :=
    .object [("position", coordJson p), ("type", .nat kind.toNat), ("name", .string name),
      ("damage", .single damage), ("faces", .nat (w.freshFaces registry p).visible.bits.toNat)]
  (w.block? p).elim (fields air "air" 0) fun b =>
    fields b.kind (((registry.get? b.kind).map (·.name)).getD "unknown") b.damage

theorem Answer.status_success (message : String) (data : Json) :
    (success message data).status = 200 := rfl

/-- What a service relies on. -/
structure Service.Sound (s : Service) : Prop where
  owned : s.world.Owned
  faces : s.world.FacesTrue s.registry

variable {s : Service}

/-- To show a block is to look at it, and it is shown as it is after the look. -/
theorem blockJson_eq (s : Service) {w : World} (ho : w.Owned) (ht : w.FacesTrue s.registry)
    (p : Coord) :
    ∃ w', Glance s.registry w w'
      ∧ blockJson { s with world := w } p
        = (shownBlock s.registry w' p, { s with world := w' }) := by
  cases hb : w.block? p with
  | none =>
    refine ⟨w, .refl s.registry w, ?_⟩
    simp only [blockJson, shownBlock, hb, Option.elim_none, freshFaces_of_none hb]
  | some b =>
    refine ⟨_, .faces p, ?_⟩
    have hblock : (w.visibleFaces s.registry p).2.block? p
        = some (b.remember (w.freshFaces s.registry p)) := by
      rw [block?_visibleFaces ho, if_pos rfl, hb, Option.map_some]
    have hfresh : (w.visibleFaces s.registry p).2.freshFaces s.registry p
        = w.freshFaces s.registry p :=
      freshFaces_congr fun q _ => kind?_visibleFaces ho p q
    have hdamage : (b.remember (w.freshFaces s.registry p)).damage = b.damage := by
      unfold Cell.remember
      split <;> rfl
    simp only [blockJson, shownBlock, hb, hblock, hfresh, Option.elim_some, Cell.kind_remember,
      hdamage, ht.visibleFaces_eq ho]

/-! ## Effects -/

/-- What a request can do: how it is answered and the service that it leaves. -/
inductive Effect (s : Service) (r : Request) (a : Answer) (s' : Service) : Prop where
  /-- The world is only looked at. A request for a change has then been refused. -/
  | looked (hregistry : s'.registry = s.registry) (hworld : Glance s.registry s.world s'.world)
    (hrefused : r.IsPut ∨ r.IsDig → 400 ≤ a.status)
  | put (hr : r.IsPut) {b : BlockBody} {id : BlockId} (hbody : BlockBody.read r.body = .ok b)
    (hid : b.blockId s.registry = .ok id) (hregistry : s'.registry = s.registry)
    (hworld : Glance s.registry (s.world.setBlock ⟨b.x, b.y, b.z⟩ id) s'.world)
    (hanswer : a = .success "Блок записан" (shownBlock s.registry s'.world ⟨b.x, b.y, b.z⟩))
  | dug (hr : r.IsDig) {b : DigBody} (hbody : DigBody.read r.body = .ok b)
    (hregistry : s'.registry = s.registry)
    (hworld : Glance s.registry (s.world.damageBlock s.registry ⟨b.x, b.y, b.z⟩ b.amount).2 s'.world)
    (hanswer : a = .success "Урон нанесён" (.object
      [("broken", .bool (s.world.damageBlock s.registry ⟨b.x, b.y, b.z⟩ b.amount).1),
        ("block", shownBlock s.registry s'.world ⟨b.x, b.y, b.z⟩)]))

/-- An effect shows in the world only; what is counted besides does not matter. -/
theorem Effect.count {r : Request} {a : Answer} {s' : Service} (h : Effect s r a s')
    (traffic : Traffic) : Effect s r a { s' with traffic } := by
  cases h with
  | looked hregistry hworld hrefused => exact .looked hregistry hworld hrefused
  | put hr hbody hid hregistry hworld hanswer => exact .put hr hbody hid hregistry hworld hanswer
  | dug hr hbody hregistry hworld hanswer => exact .dug hr hbody hregistry hworld hanswer

/-- An effect depends on which of the two changes a request asks for, and on its body. -/
theorem Effect.of_request {r r' : Request} {a : Answer} {s' : Service} (h : Effect s r a s')
    (hput : r'.IsPut ↔ r.IsPut) (hdig : r'.IsDig ↔ r.IsDig) (hbody : r'.body = r.body) :
    Effect s r' a s' := by
  cases h with
  | looked hregistry hworld hrefused =>
    refine .looked hregistry hworld fun hr => hrefused ?_
    rwa [hput, hdig] at hr
  | put hr hread hid hregistry hworld hanswer =>
    exact .put (hput.mpr hr) (hbody ▸ hread) hid hregistry hworld hanswer
  | dug hr hread hregistry hworld hanswer =>
    exact .dug (hdig.mpr hr) (hbody ▸ hread) hregistry hworld hanswer

/-- A way to save that changes nothing but the books of the world. -/
def Saver.KeepsWorld {σ : Type} (saver : Saver σ) : Prop :=
  ∀ (w : World) (store : σ), w.Unchanged (saver w store).2.1

section Handlers

variable {r : Request} {a : Answer}

/-- A request that is for another route than the two that change blocks. -/
theorem not_change_of_find? {route : Route} (hfound : Route.find? r.method r.path = some route)
    (hput : route ≠ .putBlock) (hdig : route ≠ .dig) : ¬(r.IsPut ∨ r.IsDig) := by
  rintro (h | h)
  · exact hput (Option.some.inj (hfound.symm.trans h.find?))
  · exact hdig (Option.some.inj (hfound.symm.trans h.find?))

theorem not_change_of_not_found (hfound : Route.find? r.method r.path = none) :
    ¬(r.IsPut ∨ r.IsDig) := by
  rintro (h | h) <;> cases hfound.symm.trans h.find?

theorem effect_self (h : ¬(r.IsPut ∨ r.IsDig)) : Effect s r a s :=
  .looked rfl (.refl _ _) fun hr => (h hr).elim

theorem effect_badRequest (message : String) : Effect s r (.badRequest message) s :=
  .looked rfl (.refl _ _) fun _ => Nat.le_refl 400

theorem effect_getBlock (hs : s.Sound) (h : ¬(r.IsPut ∨ r.IsDig)) :
    Effect s r (getBlock s r).1 (getBlock s r).2 := by
  unfold getBlock
  cases queryCoord r with
  | error message => exact effect_self h
  | ok p =>
    obtain ⟨w', hlook, hshown⟩ := blockJson_eq s hs.owned hs.faces p
    simp only [hshown]
    exact .looked rfl hlook fun hr => (h hr).elim

theorem effect_putBlock (hs : s.Sound) (h : r.IsPut) :
    Effect s r (putBlock s r).1 (putBlock s r).2 := by
  unfold putBlock
  cases hbody : BlockBody.read r.body with
  | error e => exact effect_badRequest e.message
  | ok b =>
    cases hid : b.blockId s.registry with
    | error message =>
      simp only [hid]
      exact effect_badRequest message
    | ok id =>
      obtain ⟨w', hlook, hshown⟩ := blockJson_eq s
        ((edits_setBlock s.world ⟨b.x, b.y, b.z⟩ id).owned hs.owned)
        (hs.faces.setBlock hs.owned ⟨b.x, b.y, b.z⟩ id) ⟨b.x, b.y, b.z⟩
      simp only [hid, hshown]
      exact .put h hbody hid rfl hlook rfl

theorem effect_dig (hs : s.Sound) (h : r.IsDig) : Effect s r (dig s r).1 (dig s r).2 := by
  unfold dig
  cases hbody : DigBody.read r.body with
  | error e => exact effect_badRequest e.message
  | ok b =>
    simp only
    split
    · exact effect_badRequest _
    · obtain ⟨w', hlook, hshown⟩ := blockJson_eq s
        ((edits_damageBlock s.registry s.world ⟨b.x, b.y, b.z⟩ b.amount).owned hs.owned)
        (hs.faces.damageBlock hs.owned s.registry ⟨b.x, b.y, b.z⟩ b.amount) ⟨b.x, b.y, b.z⟩
      simp only [hshown]
      exact .dug h hbody rfl hlook rfl

theorem effect_raycast (h : ¬(r.IsPut ∨ r.IsDig)) :
    Effect s r (raycast s r).1 (raycast s r).2 := by
  unfold raycast
  cases RayBody.read r.body with
  | error e => exact effect_self h
  | ok b =>
    dsimp only
    split
    · exact effect_self h
    · refine .looked rfl ?_ fun hr => (h hr).elim
      simp only [World.raycast]
      split
      · exact .refl _ _
      · exact .books ⟨⟨rfl, rfl⟩, ⟨rfl, rfl, rfl, rfl⟩, rfl⟩

theorem effect_collide (h : ¬(r.IsPut ∨ r.IsDig)) :
    Effect s r (collide s r).1 (collide s r).2 := by
  unfold collide
  cases BoxBody.read r.body with
  | error e => exact effect_self h
  | ok b =>
    dsimp only
    split
    · exact effect_self h
    · exact .looked rfl (.books ⟨⟨rfl, rfl⟩, ⟨rfl, rfl, rfl, rfl⟩, rfl⟩) fun hr => (h hr).elim

end Handlers

section Serve

variable {σ : Type} {saver : Option (Saver σ)} (hsaver : ∀ f ∈ saver, f.KeepsWorld)
include hsaver

theorem glance_save (s : Service) (store : σ) :
    (save saver s store).service.registry = s.registry
      ∧ Glance s.registry s.world (save saver s store).service.world := by
  unfold save
  cases saver with
  | none => exact ⟨rfl, .refl _ _⟩
  | some f =>
    have hkept := hsaver f rfl s.world store
    dsimp only
    split <;> rename_i hrun <;> rw [hrun] at hkept <;> exact ⟨rfl, .books hkept⟩

/-- What a route does. One that breaks down has only looked as well. -/
theorem effect_handle (hs : s.Sound) {route : Route} (ctx : Context) (store : σ) {r : Request}
    (hfound : Route.find? r.method r.path = some route) :
    Effect s r ((route.handle saver ctx s store r).answer.getD ⟨500, .text ""⟩)
      (route.handle saver ctx s store r).service := by
  have hroute := (Route.find?_eq_some_iff ..).mp hfound
  cases route with
  | putBlock => exact effect_putBlock hs ⟨hroute.1.symm, hroute.2.symm⟩
  | dig => exact effect_dig hs ⟨hroute.1.symm, hroute.2.symm⟩
  | getBlock => exact effect_getBlock hs (not_change_of_find? hfound (by decide) (by decide))
  | raycast => exact effect_raycast (not_change_of_find? hfound (by decide) (by decide))
  | collide => exact effect_collide (not_change_of_find? hfound (by decide) (by decide))
  | chunk => exact effect_self (not_change_of_find? hfound (by decide) (by decide))
  | health => exact effect_self (not_change_of_find? hfound (by decide) (by decide))
  | metrics => exact effect_self (not_change_of_find? hfound (by decide) (by decide))
  | save =>
    obtain ⟨hregistry, hlook⟩ := glance_save hsaver s store
    exact .looked hregistry hlook fun hr =>
      (not_change_of_find? hfound (by decide) (by decide) hr).elim

theorem effect_answer (hs : s.Sound) (ctx : Context) (store : σ) (r : Request) :
    Effect s r ⟨(answer saver ctx s store r).reply.status,
        (answer saver ctx s store r).reply.content⟩
      (answer saver ctx s store r).service := by
  unfold answer
  cases hfound : Route.find? r.method r.path with
  | none => exact (effect_self (not_change_of_not_found hfound)).count _
  | some route =>
    have heffect := effect_handle hsaver hs ctx store hfound
    dsimp only
    cases hanswer : (route.handle saver ctx s store r).answer with
    | none =>
      rw [hanswer] at heffect
      exact heffect
    | some a =>
      rw [hanswer] at heffect
      exact heffect.count _

/-- What one request does. -/
theorem effect_serve (hs : s.Sound) (ctx : Context) (store : σ) (r : Request) :
    Effect s r ⟨(serve saver ctx s store r).reply.status,
        (serve saver ctx s store r).reply.content⟩
      (serve saver ctx s store r).service := by
  -- A request without a method asks to get something.
  obtain ⟨r', hr', hput, hdig, hbody⟩ : ∃ r',
      (if r.method = "" then { r with method := "GET" } else r) = r'
        ∧ (r.IsPut ↔ r'.IsPut) ∧ (r.IsDig ↔ r'.IsDig) ∧ r.body = r'.body := by
    refine ⟨_, rfl, ?_⟩
    split
    · rename_i hempty
      simp [Request.IsPut, Request.IsDig, hempty]
    · exact ⟨.rfl, .rfl, rfl⟩
  rw [serve]
  simp only [hr']
  refine Effect.of_request ?_ hput hdig hbody
  split
  · rename_i hfound _
    exact effect_self (not_change_of_not_found hfound)
  · exact effect_answer hsaver hs ctx store r'

end Serve

/-! ## The saver's own state -/

section Store

variable {σ : Type} (saver : Saver σ) (ctx : Context) (s : Service) (store : σ) (r : Request)

theorem store_handle (route : Route) :
    (route.handle (some saver) ctx s store r).store = store
      ∨ (route.handle (some saver) ctx s store r).store = (saver s.world store).2.2 := by
  cases route with
  | save =>
    right
    rw [Route.handle, save]
    generalize saver s.world store = ended
    obtain ⟨outcome, world, store'⟩ := ended
    cases outcome <;> rfl
  | _ => exact .inl rfl

/-- A request leaves the saver's state as it is, or saves once. -/
theorem store_serve :
    (serve (some saver) ctx s store r).store = store
      ∨ (serve (some saver) ctx s store r).store = (saver s.world store).2.2 := by
  rw [serve]
  generalize (if r.method = "" then { r with method := "GET" } else r) = r'
  split
  · exact .inl rfl
  · rw [answer]
    cases Route.find? r'.method r'.path with
    | none => exact .inl rfl
    | some route =>
      have hhandle := store_handle saver ctx s store r' route
      dsimp only
      split <;> exact hhandle

end Store

/-! ## Changes -/

namespace Effect

variable {r : Request} {a : Answer} {s' : Service}

theorem registry_eq (h : Effect s r a s') : s'.registry = s.registry := by
  cases h <;> assumption

theorem edits (h : Effect s r a s') : Edits s.world s'.world := by
  cases h with
  | looked _ hworld _ => exact hworld.edits
  | put _ _ _ _ hworld _ => exact (edits_setBlock ..).trans hworld.edits
  | dug _ _ _ hworld _ => exact (edits_damageBlock ..).trans hworld.edits

theorem sound (h : Effect s r a s') (hs : s.Sound) : s'.Sound := by
  refine ⟨h.edits.owned hs.owned, ?_⟩
  rw [h.registry_eq]
  cases h with
  | looked _ hworld _ => exact hworld.facesTrue hs.owned hs.faces
  | put _ _ _ _ hworld _ =>
    exact hworld.facesTrue ((edits_setBlock ..).owned hs.owned) (hs.faces.setBlock hs.owned _ _)
  | dug _ _ _ hworld _ =>
    exact hworld.facesTrue ((edits_damageBlock ..).owned hs.owned)
      (hs.faces.damageBlock hs.owned _ _ _)

/-- A request that is refused, or that asks for no change, only looks. -/
theorem sameButFaces (h : Effect s r a s') (ho : s.world.Owned)
    (hlook : 400 ≤ a.status ∨ ¬r.IsPut ∧ ¬r.IsDig) : s.world.SameButFaces s'.world := by
  cases h with
  | looked _ hworld _ => exact hworld.sameButFaces ho
  | put hr _ _ _ _ hanswer =>
    cases hlook with
    | inl hrefused => rw [hanswer, Answer.status_success] at hrefused; omega
    | inr hother => exact absurd hr hother.1
  | dug hr _ _ _ hanswer =>
    cases hlook with
    | inl hrefused => rw [hanswer, Answer.status_success] at hrefused; omega
    | inr hother => exact absurd hr hother.2

/-- The block that a request has put is at its position, and nothing else has changed. -/
theorem of_put (h : Effect s r a s') (ho : s.world.Owned) (hput : r.IsPut) (hok : a.status = 200) :
    ∃ (b : BlockBody) (id : BlockId) (p : Coord), BlockBody.read r.body = .ok b
      ∧ b.blockId s.registry = .ok id ∧ p = ⟨b.x, b.y, b.z⟩
      ∧ (∀ q, q ≠ p →
          (s'.world.block? q).map Cell.content = (s.world.block? q).map Cell.content)
      ∧ (s'.world.block? p).map Cell.content = (if id = air then none else some ⟨id, 0⟩)
      ∧ a.content = (Answer.success "Блок записан" (shownBlock s.registry s'.world p)).content := by
  cases h with
  | looked _ _ hrefused =>
    have hle := hrefused (.inl hput)
    omega
  | dug hr _ _ _ _ => exact absurd (hput.1.symm.trans hr.1) (by decide)
  | @put _ b id hbody hid _ hworld hanswer =>
    obtain ⟨p, hp⟩ : ∃ p : Coord, p = ⟨b.x, b.y, b.z⟩ := ⟨_, rfl⟩
    rw [← hp] at hworld hanswer
    have hsame := hworld.sameButFaces ((edits_setBlock s.world p id).owned ho)
    refine ⟨b, id, p, hbody, hid, hp, fun q hq => ?_, ?_, ?_⟩
    · rw [hsame.content_eq, content_setBlock ho p id hq]
    · rw [hsame.content_eq, block?_setBlock ho, if_pos rfl]
      by_cases hair : id = air <;> simp [hair, Cell.solid?, Cell.isAir, Cell.fresh, Cell.content]
    · rw [hanswer]

/-- Digging changes nothing but the block at its position. -/
theorem of_dig (h : Effect s r a s') (ho : s.world.Owned) (hdig : r.IsDig) (hok : a.status = 200) :
    ∃ (b : DigBody) (p : Coord), DigBody.read r.body = .ok b ∧ p = ⟨b.x, b.y, b.z⟩
      ∧ (∀ q, q ≠ p →
          (s'.world.block? q).map Cell.content = (s.world.block? q).map Cell.content)
      ∧ a.content = (Answer.success "Урон нанесён" (.object
          [("broken", .bool ((s.world.block? p).isSome && (s'.world.block? p).isNone)),
            ("block", shownBlock s.registry s'.world p)])).content := by
  cases h with
  | looked _ _ hrefused =>
    have hle := hrefused (.inr hdig)
    omega
  | put hr _ _ _ _ _ => exact absurd (hdig.1.symm.trans hr.1) (by decide)
  | @dug _ b hbody _ hworld hanswer =>
    obtain ⟨p, hp⟩ : ∃ p : Coord, p = ⟨b.x, b.y, b.z⟩ := ⟨_, rfl⟩
    rw [← hp] at hworld hanswer
    have hsame := hworld.sameButFaces ((edits_damageBlock s.registry s.world p b.amount).owned ho)
    refine ⟨b, p, hbody, hp, fun q hq => ?_, ?_⟩
    · rw [hsame.content_eq, content_damageBlock ho s.registry p b.amount hq]
    · have hnone : (s'.world.block? p).isNone
          = ((s.world.damageBlock s.registry p b.amount).2.block? p).isNone := by
        have hcontent := congrArg Option.isNone (hsame.content_eq p)
        rwa [Option.isNone_map, Option.isNone_map] at hcontent
      rw [hanswer, hnone, ← damageBlock_fst ho]

end Effect

/-! ## Servers -/

/-- The services that a server can come to: that of a world which has come about by moves, and from
there on by serving requests and by writing the journal to the log. -/
inductive Reached {σ : Type} (saver : Option (Saver σ)) : Service → Prop where
  | start (registry : Registry) (seed : Int64) (id : String) (createdAt : Timestamp)
    (compression : String) (moves : List Move) (hm : ∀ m ∈ moves, m.FaithfulTo registry)
    (maxRaycast maxCollide : Float) :
    Reached saver (.new (Move.run moves (.new seed id createdAt compression)) registry maxRaycast
      maxCollide)
  | serve {s : Service} (hs : Reached saver s) (ctx : Context) (store : σ) (r : Request) :
    Reached saver (Http.serve saver ctx s store r).service
  | told {s : Service} (hs : Reached saver s) :
    Reached saver { s with world := s.world.forgetEvents }

theorem Reached.sound {σ : Type} {saver : Option (Saver σ)} (hsaver : ∀ f ∈ saver, f.KeepsWorld)
    (h : Reached saver s) : s.Sound := by
  induction h with
  | start registry seed id createdAt compression moves hm _ _ =>
    have hnew := owned_new seed id createdAt compression
    exact ⟨hnew.run moves, (facesTrue_new registry seed id createdAt compression).run hnew hm⟩
  | serve _ ctx store r ih => exact (effect_serve hsaver ih ctx store r).sound ih
  | told _ ih =>
    exact ⟨SameStorage.owned ⟨rfl, rfl⟩ ih.owned,
      ih.faces.of_block?_eq (SameStorage.block?_eq ⟨rfl, rfl⟩)⟩

/-- In every service that a server can come to: a request that is refused, or that is for something
else than to put a block or to dig, leaves the world as it is but for remembered faces. One that puts
a block or digs with success changes no other position than its own, and its answer shows the block
there as it is afterwards; data that cannot be written as text leave the answer empty. -/
theorem serve_changes_target_only {σ : Type} {saver : Option (Saver σ)}
    (hsaver : ∀ f ∈ saver, f.KeepsWorld) (hs : Reached saver s) (ctx : Context) (store : σ)
    (r : Request) :
    let served := serve saver ctx s store r
    let w := s.world
    let w' := served.service.world
    (400 ≤ served.reply.status ∨ ¬r.IsPut ∧ ¬r.IsDig → w.SameButFaces w')
      ∧ (r.IsPut → served.reply.status = 200 →
          ∃ (b : BlockBody) (id : BlockId) (p : Coord), BlockBody.read r.body = .ok b
            ∧ b.blockId s.registry = .ok id ∧ p = ⟨b.x, b.y, b.z⟩
            ∧ (∀ q, q ≠ p → (w'.block? q).map Cell.content = (w.block? q).map Cell.content)
            ∧ (w'.block? p).map Cell.content = (if id = air then none else some ⟨id, 0⟩)
            ∧ served.reply.content
              = (Answer.success "Блок записан" (shownBlock s.registry w' p)).content)
      ∧ (r.IsDig → served.reply.status = 200 →
          ∃ (b : DigBody) (p : Coord), DigBody.read r.body = .ok b ∧ p = ⟨b.x, b.y, b.z⟩
            ∧ (∀ q, q ≠ p → (w'.block? q).map Cell.content = (w.block? q).map Cell.content)
            ∧ served.reply.content
              = (Answer.success "Урон нанесён" (.object
                  [("broken", .bool ((w.block? p).isSome && (w'.block? p).isNone)),
                    ("block", shownBlock s.registry w' p)])).content) := by
  intro served w w'
  have hsound := hs.sound hsaver
  have heffect := effect_serve hsaver hsound ctx store r
  exact ⟨heffect.sameButFaces hsound.owned, heffect.of_put hsound.owned,
    heffect.of_dig hsound.owned⟩

/-! ## The server -/

theorem unchanged_saveTo {σ : Type} (w : World) (savedAt : Timestamp) (sink : Save.Sink σ) (out : σ) :
    w.Unchanged (w.saveTo savedAt sink out).2.2 := by
  rw [saveTo]
  split <;> exact ⟨⟨rfl, rfl⟩, ⟨rfl, rfl, rfl, rfl⟩, rfl⟩

theorem unchanged_save (sink : Save.Sink Save.Disk.OpenSink) (l : Save.Location) (id : String)
    (savedAt : Timestamp) (w : World) (d : Save.Disk) :
    w.Unchanged (Program.Persistence.save sink l id savedAt w d).world := by
  unfold Program.Persistence.save
  split
  · exact .refl w
  · rename_i out _
    have hkept := unchanged_saveTo w savedAt sink out
    split <;> rename_i hrun <;> rw [hrun] at hkept <;> exact hkept

/-- Saving on request changes nothing but the books. -/
theorem keepsWorld_saver (l : Save.Location) : Saver.KeepsWorld (Program.Server.saver l) := by
  intro w r
  have hkept := unchanged_save Save.Disk.OpenSink.sink l (Program.Persistence.nextId l r.disk) r.now
    w r.disk
  unfold Program.Server.saver
  split <;> rename_i hrun <;> rw [Program.Server.saveWorld, Prod.mk.injEq, Prod.mk.injEq] at hrun
  all_goals
    rw [← hrun.2.1]
    exact ⟨hkept.storage, hkept.name, hkept.tick⟩

/-- A request to dig on the first axis. -/
def digRequest : Request :=
  ⟨"POST", ⟨[], [], none, "/api/dig".toUTF8.toList, none⟩, [],
    "\x7b\"x\": 5, \"amount\": 1\x7d"⟩

/-- A server with a new world. A block of stone is put and is there; digging in the air breaks
nothing, and so says the answer. -/
theorem serve_changes_target_only_new :
    let saver := some (Program.Server.saver ⟨.file, "world.zip"⟩)
    let s : Service := .new (.new 1 "" .zero "") .builtin 256 64
    let store : Program.Server.Running := ⟨.initial .empty, [], .zero, [], []⟩
    let put := serve saver default s store (stoneRequest "5")
    let dug := serve saver default s store digRequest
    (∀ f ∈ saver, f.KeepsWorld) ∧ Reached saver s
      ∧ (stoneRequest "5").IsPut ∧ put.reply.status = 200
      ∧ (put.service.world.block? ⟨5, 0, 0⟩).map Cell.content = some ⟨stone, 0⟩
      ∧ digRequest.IsDig ∧ dug.reply.status = 200
      ∧ dug.reply.content = (Answer.success "Урон нанесён" (.object [("broken", .bool false),
          ("block", shownBlock .builtin dug.service.world ⟨5, 0, 0⟩)])).content
      ∧ (¬saveRequest.IsPut ∧ ¬saveRequest.IsDig)
      ∧ s.world.SameButFaces (serve saver default s store saveRequest).service.world := by
  intro saver s store put dug
  have hsaver : ∀ f ∈ saver, f.KeepsWorld := by
    intro f hf
    obtain rfl := Option.some.inj hf
    exact keepsWorld_saver _
  have hs : Reached saver s := .start .builtin 1 "" .zero "" [] (by simp) 256 64
  have hput : (stoneRequest "5").IsPut := ⟨rfl, by decide +kernel⟩
  have hdig : digRequest.IsDig := ⟨rfl, by decide +kernel⟩
  have hputStatus : put.reply.status = 200 := by decide +kernel
  have hdigStatus : dug.reply.status = 200 := by decide +kernel
  have hsave : ¬saveRequest.IsPut ∧ ¬saveRequest.IsDig :=
    ⟨fun h => absurd h.1 (by decide), fun h => absurd h.2 (by decide +kernel)⟩
  refine ⟨hsaver, hs, hput, hputStatus, ?_, hdig, hdigStatus, ?_, hsave, ?_⟩
  · obtain ⟨b, id, p, hbody, hid, hp, -, hblock, -⟩ :=
      (serve_changes_target_only hsaver hs default store (stoneRequest "5")).2.1 hput hputStatus
    have hread : ((BlockBody.read (stoneRequest "5").body).toOption.map fun b =>
        ((⟨b.x, b.y, b.z⟩ : Coord), (b.blockId .builtin).toOption))
          = some (⟨5, 0, 0⟩, some stone) := by
      decide +kernel
    rw [hbody] at hread
    obtain ⟨hposition, htype⟩ := Prod.mk.inj (Option.some.inj hread)
    have hid' : b.blockId .builtin = .ok id := hid
    rw [hid'] at htype
    rw [Option.some.inj htype, hp, hposition] at hblock
    exact hblock
  · obtain ⟨b, p, hbody, hp, -, hcontent⟩ :=
      (serve_changes_target_only hsaver hs default store digRequest).2.2 hdig hdigStatus
    have hread : ((DigBody.read digRequest.body).toOption.map fun b => (⟨b.x, b.y, b.z⟩ : Coord))
        = some ⟨5, 0, 0⟩ := by
      decide +kernel
    rw [hbody] at hread
    have hposition : (⟨b.x, b.y, b.z⟩ : Coord) = ⟨5, 0, 0⟩ := Option.some.inj hread
    have hair : s.world.block? p = none := block?_new ..
    rw [hair, hp, hposition] at hcontent
    exact hcontent
  · exact (serve_changes_target_only hsaver hs default store saveRequest).1 (.inr hsave)

end BlockWorld.Http
