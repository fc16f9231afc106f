import TaggedWords.Log.Filter
import TaggedWords.Execution.Host

/-!
# What an execution leaves behind

* `Exit`                     exit status, standard output and standard error;
* `Execution.finish`         the exit of an execution that is done or that a failure ended;
* `Execution.hostToStdout`   hosts a program and prints its word to standard output.
-/

namespace TaggedWords

structure Exit where
  status : Nat
  stdout : String
  stderr : String
  deriving DecidableEq, Repr

/-- The exit status that is seen of the one asked for: its lowest eight bits. -/
def shownStatus (status : Int) : Nat := (status % 256).toNat

namespace Execution

variable {α : Type}

/-- Standard error shows the events that the filter lets through, and behind them the report. -/
def finish (filter : Filter) : Except Failure α × Execution → Exit
  | (.ok _, state) => ⟨0, state.stdout, filter.lines state.events.toList⟩
  | (.error e, state) =>
    ⟨shownStatus e.exitStatus, state.stdout,
      filter.lines (state.events.toList ++ [.terminating e]) ++ e.report⟩

def exit? (filter : Filter) (action : Action α) : Option Exit :=
  (action.run initial).map (finish filter)

def hostToStdout (entry : Action (Word × α)) (words : Nat) : Action Unit := do
  let run ← host entry words {}
  emit run.sink.text
  match run.result with
  | .ok _ => return ()
  | .error e => throw e

end Execution

end TaggedWords
