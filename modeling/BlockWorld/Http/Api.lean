import BlockWorld.Http.Body
import BlockWorld.Http.Health
import BlockWorld.Http.Reply
import BlockWorld.Http.Request
import BlockWorld.Http.Traffic
import BlockWorld.World.Edit
import BlockWorld.World.Query
/-!
The routes: what requests do to the served world and what they answer.
-/
namespace BlockWorld.Http

open Grid Block Space Data

/-- What the server serves. -/
structure Service where
  world : World
  registry : Registry
  /-- The greatest length of a ray. -/
  maxRaycastDistance : Float
  /-- The greatest edge of a box. -/
  maxCollideExtent : Float
  traffic : Traffic

namespace Service

/-- The usual length of rays. -/
def usualRaycastDistance : Float := 256

/-- The usual edge of boxes. -/
def usualCollideExtent : Float := 64

/-- The service of a world; a limit that is not positive is replaced by the usual one (`NewRestServer`). -/
def new (world : World) (registry : Registry) (maxRaycast maxCollide : Float) : Service where
  world := world
  registry := registry
  maxRaycastDistance := if maxRaycast ≤ 0 then usualRaycastDistance else maxRaycast
  maxCollideExtent := if maxCollide ≤ 0 then usualCollideExtent else maxCollide
  traffic := .empty

end Service

/-! ## Values in answers -/

/-- A position as three numbers. -/
def coordJson (c : Coord) : Json := .array [.int c.x.toInt, .int c.y.toInt, .int c.z.toInt]

/-- A point as three numbers. -/
def pointJson (p : Point Float) : Json := .array [.double p.x, .double p.y, .double p.z]

/-- The block at a position. Looking at a block may compute its visible faces. Stands for
`RestServer.blockInfo`. -/
def blockJson (s : Service) (p : Coord) : Json × Service :=
  let fields (kind : BlockId) (name : String) (damage : Float32) (faces : FaceMask) : Json :=
    .object [("position", coordJson p), ("type", .nat kind.toNat), ("name", .string name),
      ("damage", .single damage), ("faces", .nat faces.visible.bits.toNat)]
  match s.world.block? p with
  | none => (fields air "air" 0 .unknown, s)
  | some b =>
    let name := ((s.registry.get? b.kind).map (·.name)).getD "unknown"
    let (mask, world) := s.world.visibleFaces s.registry p
    (fields b.kind name b.damage mask, { s with world })

/-- A chunk. -/
def chunkJson (c : Coord) (d : ChunkData) : Json :=
  .object [("coord", coordJson c), ("generated", .bool d.generated),
    ("priority", .int d.priority.toInt), ("last_touched", .nat d.lastTouched.toNat),
    ("solid", .nat d.chunk.countSolid), ("cached", .bool d.chunk.cached)]

/-! ## Checks -/

/-- Reads one coordinate from the query. -/
def queryInt64 (r : Request) (name : String) : Except String Int64 :=
  match r.queryValue? name with
  | none => .error ("параметр " ++ name ++ " обязателен")
  | some raw =>
    let number := (String.fromUTF8? raw).bind fun s => (Text.readInteger s.toList).toOption
    match number with
    | some n => .ok n
    | none => .error ("параметр " ++ name ++ ": " ++ Text.quoteBytes raw ++ " не целое число")

/-- Reads a position from the query (`queryVec`). -/
def queryCoord (r : Request) : Except String Coord := do
  return ⟨← queryInt64 r "x", ← queryInt64 r "y", ← queryInt64 r "z"⟩

/-- No coordinate may be greater than this. -/
def maxCoordinate : Float := 1073741824

/-- Checks that the coordinates of a point can be turned into cells (`checkVec`). -/
def checkPoint (name : String) (p : Point Float) : Except String Unit :=
  match [p.x, p.y, p.z].find? fun c => c.isNaN || c.isInf || c.abs > maxCoordinate with
  | some c => .error (name ++ ": недопустимое значение " ++ Number.FloatStyle.message.double c)
  | none => .ok ()

/-- Checks a request for a ray (`RestServer.validateRaycast`). -/
def checkRay (s : Service) (b : RayBody) : Except String Unit := do
  checkPoint "origin" b.origin
  checkPoint "direction" b.direction
  if b.maxDistance.isNaN || b.maxDistance > s.maxRaycastDistance then
    throw ("max_distance должен быть не больше " ++
      Number.FloatStyle.message.double s.maxRaycastDistance)

/-- Checks a request for a box (`RestServer.validateCollide`). -/
def checkBox (s : Service) (b : BoxBody) : Except String Unit := do
  checkPoint "min" b.min
  checkPoint "max" b.max
  let edges := [b.max.x - b.min.x, b.max.y - b.min.y, b.max.z - b.min.z]
  match edges.findIdx? fun e => e.abs > s.maxCollideExtent with
  | some axis =>
    throw ("ребро AABB по оси " ++ toString axis ++ " больше " ++
      Number.FloatStyle.message.double s.maxCollideExtent)
  | none => return ()

/-- The type of block that a request names (`SetBlockRequest.blockID`). -/
def BlockBody.blockId (b : BlockBody) (r : Registry) : Except String BlockId :=
  if b.name ≠ "" then
    match r.lookup b.name with
    | .ok id => .ok id
    | .error e => .error e.message
  else
    match b.kind with
    | none => .error "нужно указать type или name"
    | some id =>
      if r.contains id then .ok id
      else .error ("неизвестный тип блока " ++ toString id.toNat)

/-! ## Routes -/

/-- The answer to a request for a block (`RestServer.handleGetBlock`). -/
def getBlock (s : Service) (r : Request) : Answer × Service :=
  match queryCoord r with
  | .error message => (.badRequest message, s)
  | .ok p =>
    let (block, s) := blockJson s p
    (.success "Блок получен" block, s)

/-- The answer to a request to put a block (`RestServer.handleSetBlock`). -/
def putBlock (s : Service) (r : Request) : Answer × Service :=
  match BlockBody.read r.body with
  | .error e => (.badRequest e.message, s)
  | .ok b =>
    match b.blockId s.registry with
    | .error message => (.badRequest message, s)
    | .ok id =>
      let p : Coord := ⟨b.x, b.y, b.z⟩
      let (block, s) := blockJson { s with world := s.world.setBlock p id } p
      (.success "Блок записан" block, s)

/-- The answer to a request to dig (`RestServer.handleDig`). -/
def dig (s : Service) (r : Request) : Answer × Service :=
  match DigBody.read r.body with
  | .error e => (.badRequest e.message, s)
  | .ok b =>
    if b.amount ≤ 0 then (.badRequest "amount должен быть положительным", s)
    else
      let p : Coord := ⟨b.x, b.y, b.z⟩
      let (broken, world) := s.world.damageBlock s.registry p b.amount
      let (block, s) := blockJson { s with world } p
      (.success "Урон нанесён" (.object [("broken", .bool broken), ("block", block)]), s)

/-- The answer to a request for a ray (`RestServer.handleRaycast`). -/
def raycast (s : Service) (r : Request) : Answer × Service :=
  match RayBody.read r.body with
  | .error e => (.badRequest e.message, s)
  | .ok b =>
    match checkRay s b with
    | .error message => (.badRequest message, s)
    | .ok () =>
      let (hit, world) := s.world.raycast b.origin b.direction b.maxDistance b.previous
      let data :=
        match hit with
        | some cell => [("hit", Json.bool true), ("block", coordJson cell)]
        | none => [("hit", Json.bool false)]
      (.success "Трассировка выполнена" (.object data), { s with world })

/-- The answer to a request for a box (`RestServer.handleCollide`). -/
def collide (s : Service) (r : Request) : Answer × Service :=
  match BoxBody.read r.body with
  | .error e => (.badRequest e.message, s)
  | .ok b =>
    match checkBox s b with
    | .error message => (.badRequest message, s)
    | .ok () =>
      let (push, moved, world) := s.world.collide (Box.ofCorners b.min b.max)
      (.success "Проверка столкновений выполнена"
        (.object [("collided", .bool moved), ("push", pointJson push)]), { s with world })

/-- The answer to a request for a chunk (`RestServer.handleGetChunk`). -/
def getChunk (s : Service) (r : Request) : Answer :=
  match queryCoord r with
  | .error message => .badRequest message
  | .ok c =>
    match s.world.chunk? c with
    | some d => .success "Чанк получен" (chunkJson c d)
    | none => .failure 404 "Чанк не загружен"

/-- The answer to a request for the state of the server (`RestServer.handleHealth`). -/
def health (s : Service) (now : Int) (process : ProcessStats) : Answer :=
  ⟨200, .json (.object [("status", .string "ok"), ("time", .int now), ("process", process.json),
    ("megachunks", .nat s.world.megachunkCount), ("chunks", .nat s.world.chunkCount),
    ("tick", .nat s.world.tick.toNat)])⟩

/-- The answer to a request for measured values; the request itself is being answered. -/
def metrics (s : Service) : Answer :=
  ⟨200, .lines ((Metrics.sorted (s.traffic.samples 1 ++ s.world.gauges.samples)).map (·.line))⟩

end BlockWorld.Http
