import TaggedWords.Execution.Basic

/-!
# Hosting a program

The host makes an arena, installs it, enters the program, and prints the word that the program
gives.  Everything that goes wrong is a failure of the run: the first one wins.

* `HostRun`          what a run leaves behind;
* `Execution.host`   runs a program.
-/

namespace TaggedWords

structure HostRun (α : Type) where
  result : Except Failure Word
  sink : Sink
  /-- What else the program gave, if it was entered. -/
  entered : Option α

namespace Execution

variable {α : Type}

def printTo (sink : Sink) (w : Word) : Action (Except Failure Word × Sink) := do
  match (← get).installed with
  | none => return (.error .notInstalled, sink)
  | some arena => waitFor (arena.print w sink)

def flushed (result : Except Failure Word) (sink : Sink) : Except Failure Word := do
  let w ← result
  sink.flush.mapError Failure.output
  return w

/-- Runs a program over a new arena of so many words and prints its word.  The size is checked
first, then that no arena is installed.  Afterwards none is. -/
def host (entry : Action (Word × α)) (words : Nat) (sink : Sink) : Action (HostRun α) := do
  match Arena.checkSize words with
  | .error e => return ⟨.error (.arena e), sink, none⟩
  | .ok () =>
    note (.allocated words)
    match ← install (.zeros words) with
    | .error e => return ⟨.error e, sink, none⟩
    | .ok () =>
      let (w, answers) ← entry
      note (.returned w)
      let (result, sink) ← printTo sink w
      uninstall
      return ⟨flushed result sink, sink, some answers⟩

end Execution

end TaggedWords
