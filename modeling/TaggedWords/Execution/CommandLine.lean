import TaggedWords.Options.Parse
import TaggedWords.Options.Text
import TaggedWords.Execution.Exit

/-!
# The program as a whole

* `commandLine`   the exit of the program for a command line, an environment and an entry point.
-/

namespace TaggedWords

variable {α : Type}

def usageStatus : Nat := 2

/-- On a terminal, layout interrupts a control sequence. -/
def streamLayout : Plain.Layout := .interrupts

/-- What a request leaves behind.  None if the execution never ends. -/
def Request.exit? (env : Environment) (entry : Action (Word × α)) : Request → Option Exit
  | .run options =>
    Execution.exit? (Filter.ofText options.logFilter)
      (Execution.hostToStdout entry options.heapWords)
  | .display flag => some ⟨0, flag.text streamLayout env, ""⟩

def commandLine (arguments : List String) (env : Environment) (entry : Action (Word × α)) :
    Option Exit :=
  match Options.request arguments env with
  | .ok request => request.exit? env entry
  | .error rejection => some ⟨usageStatus, "", rejection.text streamLayout⟩

end TaggedWords
