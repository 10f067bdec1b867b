/-!
Measured values with names and labels, and their two texts: a title for lists, and a line of the
exposition format that monitoring systems read.
-/
namespace BlockWorld.Metrics

/-- What a measured value is. -/
inductive Kind where
  | gauge
  | counter
  /-- Of a distribution only the number of observations is kept. -/
  | histogram
  deriving DecidableEq, Repr

/-- A measured value. -/
structure Sample where
  kind : Kind
  name : String
  labels : List (String × String)
  value : Nat
  deriving DecidableEq, Repr

namespace Sample

/-- The order by name, then by the labels' values. -/
def le (a b : Sample) : Bool :=
  if a.name ≠ b.name then a.name < b.name
  else !(b.labels.map (·.2)).lex (a.labels.map (·.2)) fun v w => v < w

/-- The name with the labels, as in `rays{result=hit}`. -/
def title (s : Sample) : String :=
  let label := fun (pair : String × String) => pair.1 ++ "=" ++ pair.2
  if s.labels.isEmpty then s.name
  else s.name ++ "\x7b" ++ ",".intercalate (s.labels.map label) ++ "\x7d"

/-- How a character is written inside the quotes of a label. -/
def escape (c : Char) : List Char :=
  if c = '"' then ['\\', '"']
  else if c = '\\' then ['\\', '\\']
  else if c = '\n' then ['\\', 'n']
  else [c]

/-- The line of a value. Of a distribution it is the line with the number of observations. -/
def line (s : Sample) : String :=
  let label := fun (pair : String × String) =>
    pair.1 ++ "=\"" ++ String.ofList (pair.2.toList.flatMap escape) ++ "\""
  let name := if s.kind = .histogram then s.name ++ "_count" else s.name
  let labels :=
    if s.labels.isEmpty then ""
    else "\x7b" ++ ",".intercalate (s.labels.map label) ++ "\x7d"
  name ++ labels ++ " " ++ toString s.value

end Sample

/-- Samples in order. -/
def sorted (samples : List Sample) : List Sample := samples.mergeSort Sample.le

end BlockWorld.Metrics
