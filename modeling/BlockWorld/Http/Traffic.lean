import BlockWorld.Metrics
/-!
Counts of answered requests, by route and outcome.
-/
namespace BlockWorld.Http

/-- How a request ended. -/
inductive Outcome where
  | ok
  /-- The request was at fault. -/
  | rejected
  /-- The server was at fault. -/
  | failed
  deriving DecidableEq, Repr

namespace Outcome

/-- The outcome of a status (`Outcome`). -/
def ofStatus (status : Int) : Outcome :=
  if status ≥ 500 then .failed else if status ≥ 400 then .rejected else .ok

/-- The name of an outcome. -/
def name : Outcome → String
  | .ok => "ok"
  | .rejected => "rejected"
  | .failed => "failed"

end Outcome

/-- How many requests of a route ended in which way. -/
structure Traffic where
  counts : List ((String × Outcome) × Nat)
  deriving Repr, Inhabited

namespace Traffic

/-- No requests yet. -/
def empty : Traffic := ⟨[]⟩

/-- The number of requests of a route with an outcome. -/
def count (t : Traffic) (route : String) (outcome : Outcome) : Nat :=
  (t.counts.lookup (route, outcome)).getD 0

/-- Counts a request (`APIMetrics.Handler`). -/
def record (t : Traffic) (route : String) (outcome : Outcome) : Traffic :=
  ⟨((route, outcome), t.count route outcome + 1) :: t.counts.filter (·.1 != (route, outcome))⟩

/-- The counts as samples, with the number of requests that are being answered. -/
def samples (t : Traffic) (inFlight : Nat) : List Metrics.Sample :=
  let labelled (kind : Metrics.Kind) (name : String) : List Metrics.Sample :=
    t.counts.map fun ((route, outcome), n) =>
      ⟨kind, name, [("outcome", outcome.name), ("route", route)], n⟩
  labelled .histogram "voxel_api_request_duration_seconds" ++
  [⟨.gauge, "voxel_api_requests_in_flight", [], inFlight⟩] ++
  labelled .counter "voxel_api_responses_total"

end Traffic

end BlockWorld.Http
