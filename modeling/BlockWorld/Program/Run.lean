import BlockWorld.Fault
import BlockWorld.Save.Disk
/-!
What running a program leaves behind.
-/
namespace BlockWorld.Program

/-- The end of a run: the exit code, the lines written, and the disk. -/
structure Run where
  exitCode : Nat
  stdout : List String
  stderr : List String
  disk : Save.Disk

/-- The line that stands for the summary of all options. -/
def usage : String := "usage"

/-- The exit code of a program that breaks down. -/
def breakdownCode : Nat := 2

/-- The line that a breakdown leaves. Where in the program it happened is left out. -/
def breakdownLine {ε : Type} [Fault ε] (e : ε) : String := "panic: " ++ Fault.message e

end BlockWorld.Program
