import TaggedWords.Execution.Host

/-!
# Programs

A program is a list of steps, taken one by one.  It stores words in the arena, calls the runtime,
tries to host another program, and returns a word.

* `Step`          one step of a program;
* `Answer`        what a step tells;
* `Program.run`   runs a program: the word it returns, and the answers of its steps.
-/

namespace TaggedWords

inductive Step where
  | store (index : Nat) (words : List Word)
  | load (index : Nat)
  | installed
  | equal (a b : Word) (dest : Option Nat)
  | print (w : Word) (dest : Option Nat)
  | printAt (index : Nat)
  | error (code : Int)
  | host (words : Nat) (sink : Sink) (program : List Step)
  | ret (w : Word)
  | retAt (index : Nat)

inductive Answer where
  | done
  | word (w : Word)
  | bool (b : Bool)
  | hosted (result : Except Failure Word) (sink : Sink)

inductive Progress where
  | next (answer : Answer)
  | leave (w : Word)

namespace Execution

/-- Stores a word that a call gave, if an index is given for it. -/
def storeAnswer (dest : Option Nat) (w : Word) : Action Progress := do
  match dest with
  | some index => store index [w]
  | none => pure ()
  return .next (.word w)

end Execution

open Execution in
mutual

def Step.run : Step → Action Progress
  | .store index words => do
    Execution.store index words
    return .next .done
  | .load index => return .next (.word (← Execution.load index))
  | .installed => return .next (.bool (← isInstalled))
  | .equal a b dest => do storeAnswer dest (← Execution.equal a b)
  | .print w dest => do storeAnswer dest (← Execution.print w)
  | .printAt index => return .next (.word (← Execution.print (← Execution.load index)))
  | .error code => Execution.error code
  | .host words sink program => do
    let run ← Execution.host (Program.run program) words sink
    return .next (.hosted run.result run.sink)
  | .ret w => return .leave w
  | .retAt index => return .leave (← Execution.load index)

/-- The word that a program returns, zero if it returns none, and the answers of its steps. -/
def Program.run : List Step → Action (Word × List Answer)
  | [] => return (0, [])
  | step :: rest => do
    match ← step.run with
    | .leave w => return (w, [])
    | .next answer =>
      let (w, answers) ← Program.run rest
      return (w, answer :: answers)

end

end TaggedWords
