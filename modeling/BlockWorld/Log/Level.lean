import BlockWorld.Fault
import BlockWorld.Text.Blank
import BlockWorld.Text.Quoted
/-!
Levels of log messages. A message is shown where its level is at least the threshold; the
threshold `off` lets nothing through.
-/
namespace BlockWorld.Log

/-- A level, from the least to the most important, and `off` above them all. -/
inductive Level where
  | trace | debug | info | warn | error | off
  deriving DecidableEq, Repr, Inhabited

namespace Level

/-- The place of a level in the order. -/
def rank : Level → Nat
  | .trace => 0
  | .debug => 1
  | .info => 2
  | .warn => 3
  | .error => 4
  | .off => 5

/-- Whether a message of a level passes a threshold. -/
def passes (level threshold : Level) : Bool := threshold.rank ≤ level.rank

/-- The name of a level (`LogLevel.String`). -/
def name : Level → String
  | .trace => "TRACE"
  | .debug => "DEBUG"
  | .info => "INFO"
  | .warn => "WARN"
  | .error => "ERROR"
  | .off => "OFF"

/-- All levels, in order. -/
def all : List Level := [.trace, .debug, .info, .warn, .error, .off]

/-- The name of the level with a given rank. -/
def nameOfRank (n : Int) : String :=
  ((all.find? fun l => (l.rank : Int) == n).map name).getD "UNKNOWN"

/-- A text that names no level. -/
structure UnknownLevel where
  text : String
  deriving DecidableEq, Repr

/-- The wording of an unknown level. -/
def UnknownLevel.message (e : UnknownLevel) : String := "unknown log level " ++ Text.quote e.text

instance : Fault UnknownLevel := ⟨UnknownLevel.message, fun _ => []⟩

/-- The capital of a letter, as far as the names of levels can tell: two letters outside ASCII
have an ASCII capital. -/
def capital (c : Char) : Char :=
  if c.toNat = 0x131 then 'I' else if c.toNat = 0x17F then 'S' else c.toUpper

/-- The level that a text names, whatever its case and the blanks around it. No text at all names `info`.
Stands for `ParseLevel`. -/
def parse (s : String) : Except UnknownLevel Level :=
  match String.ofList ((Text.trimChars s.toList).map capital) with
  | "TRACE" => .ok .trace
  | "DEBUG" => .ok .debug
  | "" => .ok .info
  | "INFO" => .ok .info
  | "WARN" => .ok .warn
  | "WARNING" => .ok .warn
  | "ERROR" => .ok .error
  | "OFF" => .ok .off
  | "NONE" => .ok .off
  | _ => .error ⟨s⟩

end Level

/-- A message with its level. -/
structure Message where
  level : Level
  text : String
  deriving DecidableEq, Repr

end BlockWorld.Log
