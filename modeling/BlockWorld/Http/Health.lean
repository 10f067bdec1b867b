import BlockWorld.Data.Json
/-!
What the server says about its own process.
-/
namespace BlockWorld.Http

open Data

/-- The nanoseconds of a second. -/
def second : Int := 1000000000

/-- A span of time in nanoseconds, in days, hours, minutes and seconds. All parts are cut toward zero, and
leading parts that are not positive are left out. Stands for `ServerMetrics.GetUptime`. -/
def uptimeText (elapsed : Int64) : String :=
  let seconds := elapsed.toInt.tdiv second
  let days := seconds.tdiv 86400
  let hours := (seconds.tdiv 3600).tmod 24
  let minutes := (seconds.tdiv 60).tmod 60
  let tail := toString (seconds.tmod 60) ++ "с"
  if days > 0 then
    toString days ++ "д " ++ toString hours ++ "ч " ++ toString minutes ++ "м " ++ tail
  else if hours > 0 then toString hours ++ "ч " ++ toString minutes ++ "м " ++ tail
  else if minutes > 0 then toString minutes ++ "м " ++ tail
  else tail

/-- Measurements of the running process. -/
structure ProcessStats where
  uptime : Int64
  heapMegabytes : Float
  residentMegabytes : Float
  cpuPercent : Float
  tasks : Nat
  deriving Repr, Inhabited

/-- Measurements as a JSON object. -/
def ProcessStats.json (p : ProcessStats) : Json :=
  .object [("uptime", .string (uptimeText p.uptime)), ("heap_mb", .double p.heapMegabytes),
    ("rss_mb", .double p.residentMegabytes), ("cpu_percent", .double p.cpuPercent),
    ("goroutines", .nat p.tasks)]

end BlockWorld.Http
