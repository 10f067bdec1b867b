/-!
What all errors of the library have in common: a wording, and the well-known reasons found among
their causes, by which a caller can tell them apart.
-/
namespace BlockWorld

/-- A reason that callers act on. -/
inductive Reason where
  /-- A place lies outside a fixed grid. -/
  | outOfRange
  /-- Data are not what they should be. -/
  | corrupt
  /-- A chunk is there already. -/
  | chunkExists
  /-- An archive has no such entry. -/
  | entryNotFound
  /-- A store has no finished save. -/
  | noSave
  /-- A save has a format this library does not know. -/
  | unsupportedFormat
  /-- There is no such file. -/
  | notExist
  /-- An archive was told to fail. -/
  | injected
  /-- Something happened that nothing is prepared for. -/
  | breakdown
  deriving DecidableEq, Repr

/-- Errors with a wording and reasons. -/
class Fault (ε : Type) where
  message : ε → String
  reasons : ε → List Reason

instance : Fault Empty := ⟨nofun, nofun⟩

variable {ε : Type} [Fault ε]

/-- Whether an error is a breakdown. -/
def Fault.isBreakdown (e : ε) : Bool := (reasons e).contains .breakdown

/-- The wording of an error with what was being done. A breakdown says nothing of that. -/
def Fault.during (activity : String) (e : ε) : String :=
  if isBreakdown e then message e else activity ++ ": " ++ message e

end BlockWorld
