import TaggedWords.Execution.CommandLine
import TaggedWords.Execution.Program

/-!
# The command line

Hosts the program that is linked with the host, which takes no step and so returns zero.
-/

open TaggedWords

def readEnvironment : IO Environment := do
  return ⟨← IO.getEnv "TAGRT_HEAP_WORDS", ← IO.getEnv "TAGRT_LOG"⟩

/-- Writes what the program leaves behind, and gives its exit status. -/
def main (arguments : List String) : IO UInt32 := do
  match commandLine arguments (← readEnvironment) (Program.run []) with
  | none => return 1
  | some exit =>
    (← IO.getStdout).putStr exit.stdout
    (← IO.getStderr).putStr exit.stderr
    return UInt32.ofNat exit.status
