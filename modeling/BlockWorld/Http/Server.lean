import BlockWorld.Http.Api
import BlockWorld.Http.Client
import BlockWorld.Http.Redirect
import BlockWorld.Log.Level
import BlockWorld.Text.Uuid
/-!
Answering requests: finding the route, tracing and counting the request, and writing to the log.
-/
namespace BlockWorld.Http

open Data

/-- What a request asks for. -/
inductive Route where
  | getBlock | putBlock | dig | raycast | collide | chunk | save | health | metrics
  deriving DecidableEq, Repr

namespace Route

/-- All routes (`RestServer.setupRoutes`). -/
def all : List Route :=
  [.getBlock, .putBlock, .dig, .raycast, .collide, .chunk, .save, .health, .metrics]

/-- The method of a route. -/
def method : Route → String
  | .getBlock => "GET"
  | .putBlock => "PUT"
  | .chunk => "GET"
  | .health => "GET"
  | .metrics => "GET"
  | _ => "POST"

/-- The path of a route. -/
def path : Route → String
  | .getBlock => "/api/block"
  | .putBlock => "/api/block"
  | .dig => "/api/dig"
  | .raycast => "/api/raycast"
  | .collide => "/api/collide"
  | .chunk => "/api/chunk"
  | .save => "/api/save"
  | .health => "/health"
  | .metrics => "/metrics"

/-- The route of a method and a path. -/
def find? (method path : String) : Option Route :=
  all.find? fun r => r.method == method && r.path == path

end Route

/-- How a save ended. -/
inductive SaveOutcome where
  | saved
  | failed (message : String)
  /-- The save itself broke down. -/
  | crashed
  deriving DecidableEq, Repr

/-- A way to save the world, with a state of its own. -/
abbrev Saver (σ : Type) := World → σ → SaveOutcome × World × σ

/-- What answering a request depends on besides the service. -/
structure Context where
  /-- The identifier of a request that does not bring a valid one. -/
  trace : String
  /-- The time in seconds. -/
  now : Int
  process : ProcessStats
  deriving Inhabited

/-- A route's answer, or none if the route broke down, and what the log is told. -/
structure Handled (σ : Type) where
  answer : Option Answer
  service : Service
  store : σ
  messages : List Log.Message

/-- The answer to a request to save (`RestServer.handleSave`). -/
def save {σ : Type} (saver : Option (Saver σ)) (s : Service) (store : σ) : Handled σ :=
  match saver with
  | none => ⟨some (.failure 503 "Сохранение не настроено"), s, store, []⟩
  | some saver =>
    match saver s.world store with
    | (.saved, world, store) =>
      let data := Json.object [("megachunks", .nat world.megachunkCount)]
      ⟨some (.success "Мир сохранён" data), { s with world }, store, []⟩
    | (.failed message, world, store) =>
      ⟨some (.failure 500 message), { s with world }, store,
        [⟨.error, "Ошибка сохранения мира: " ++ message⟩]⟩
    | (.crashed, world, store) => ⟨none, { s with world }, store, []⟩

/-- The answer of a route. -/
def Route.handle {σ : Type} (route : Route) (saver : Option (Saver σ)) (ctx : Context)
    (s : Service) (store : σ) (r : Request) : Handled σ :=
  let plain (result : Answer × Service) : Handled σ := ⟨some result.1, result.2, store, []⟩
  match route with
  | .getBlock => plain (Http.getBlock s r)
  | .putBlock => plain (Http.putBlock s r)
  | .dig => plain (Http.dig s r)
  | .raycast => plain (Http.raycast s r)
  | .collide => plain (Http.collide s r)
  | .chunk => plain (getChunk s r, s)
  | .health => plain (Http.health s ctx.now ctx.process, s)
  | .metrics => plain (Http.metrics s, s)
  | .save => Http.save saver s store

/-! ## Header fields -/

/-- The header field that names a request. -/
def traceHeader : String := "X-Trace-ID"

/-- The header fields that let pages of other origins use the routes. -/
def corsHeaders : List (String × String) :=
  [("Access-Control-Allow-Origin", "*"),
   ("Access-Control-Allow-Methods", "GET, POST, PUT, OPTIONS"),
   ("Access-Control-Allow-Headers", "Origin, Content-Type, Accept, X-Trace-ID")]

/-- The identifier of a request: its own if it is valid, else a new one. -/
def traceOf (r : Request) (fresh : String) : String :=
  let own := r.header traceHeader
  if Text.Uuid.isValid own then own else fresh

/-! ## Answering -/

/-- The path without a slash at its end, if it has one that can be left out. -/
def withoutSlash? (path : String) : Option String :=
  match path.toList.reverse with
  | '/' :: c :: rest => some (String.ofList (c :: rest).reverse)
  | _ => none

/-- The route that a request means with a slash too many. -/
def redirect? (r : Request) : Option Reply :=
  match (withoutSlash? r.path).bind (Route.find? r.method) with
  | none => none
  | some route =>
    let url := redirectAddress r route.path
    let headers := [("Location", escapeNonAscii url)]
    if r.method = "GET" then
      let page := "<a href=\"" ++ escapeMarkup url ++ "\">Moved Permanently</a>.\n\n"
      some ⟨301, headers, .text page⟩
    else some ⟨307, headers, .text ""⟩

/-- A reply with what answering changed and what the log is told. -/
structure Served (σ : Type) where
  reply : Reply
  service : Service
  store : σ
  messages : List Log.Message

/-- What the log says when the server starts to listen. -/
def listening (address : String) : Log.Message := ⟨.info, "HTTP API слушает " ++ address⟩

/-- What the log says when a request comes in. -/
def arrival (r : Request) (shown trace : String) : Log.Message :=
  ⟨.debug, "[HTTP] ▶ " ++ r.method ++ " " ++ shown ++ " ip=" ++ clientAddress r ++ " trace=" ++ trace⟩

/-- What the log says when a request has been answered. -/
def departure (r : Request) (shown trace : String) (status : Nat) : Log.Message :=
  ⟨if status ≥ 500 then .error else .info,
    "[HTTP] ◀ " ++ r.method ++ " " ++ shown ++ " " ++ toString status ++ " " ++ World.elapsed ++
      " trace=" ++ trace⟩

/-- The answer where no route is found. -/
def unmatched (r : Request) : Answer :=
  if r.method = "OPTIONS" then ⟨204, .text ""⟩ else ⟨404, .text "404 page not found"⟩

/-- Answers a request that is not redirected. -/
def answer {σ : Type} (saver : Option (Saver σ)) (ctx : Context) (s : Service) (store : σ)
    (r : Request) : Served σ :=
  let trace := traceOf r ctx.trace
  let found := Route.find? r.method r.path
  let shown := (found.map (·.path)).getD r.path
  let label := (found.map (·.path)).getD "unmatched"
  let headers := (if found = some .metrics then [] else corsHeaders) ++ [(traceHeader, trace)]
  let handled : Handled σ :=
    match found with
    | some route => route.handle saver ctx s store r
    | none => ⟨some (unmatched r), s, store, []⟩
  let before := arrival r shown trace :: handled.messages
  match handled.answer with
  | none => ⟨⟨500, headers, .text ""⟩, handled.service, handled.store, before⟩
  | some a =>
    let traffic := handled.service.traffic.record label (.ofStatus a.status)
    ⟨⟨a.status, headers, a.content⟩, { handled.service with traffic }, handled.store,
      before ++ [departure r shown trace a.status]⟩

/-- Answers a request; one without a method asks to get something. One with a slash too many is redirected,
and nothing else is done with it. Stands for `RestServer.Handler`. -/
def serve {σ : Type} (saver : Option (Saver σ)) (ctx : Context) (s : Service) (store : σ)
    (r : Request) : Served σ :=
  let r := if r.method = "" then { r with method := "GET" } else r
  match Route.find? r.method r.path, redirect? r with
  | none, some reply => ⟨reply, s, store, []⟩
  | _, _ => answer saver ctx s store r

end BlockWorld.Http
