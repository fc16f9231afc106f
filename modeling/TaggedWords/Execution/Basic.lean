import TaggedWords.Log.Event
import TaggedWords.Output.Print
import TaggedWords.Walk.Equal

/-!
# Executions

An execution has at most one installed arena, which the calls of the running program read and
write.  It writes to standard output, which never fails, and notes events.  An action of an
execution answers, ends the execution with a failure, or never ends.

Main names:

* `Execution`                                  the state of an execution;
* `Action`                                     what an execution does;
* `Execution.install`, `Execution.uninstall`   change the installed arena;
* `Execution.equal`, `Execution.print`, `Execution.error`   the calls of a running program.
-/

namespace TaggedWords

structure Execution where
  installed : Option Arena
  stdout : String
  events : Array Event

/-- What an execution does: it answers, is ended by a failure, or never ends.  In the first two
cases the state it leaves behind is known. -/
abbrev Action (α : Type) := ExceptT Failure (StateT Execution Option) α

namespace Execution

variable {α : Type}

def initial : Execution := ⟨none, "", #[]⟩

def note (event : Event) : Action Unit :=
  modify fun state => { state with events := state.events.push event }

def emit (text : String) : Action Unit :=
  modify fun state => { state with stdout := state.stdout ++ text }

/-- Goes on with what is there, or never ends. -/
def waitFor (outcome : Option α) : Action α :=
  ExceptT.mk fun state => outcome.map fun a => (.ok a, state)

/-- The answer of a walk.  An arena error ends the execution. -/
def follow (walk : Walk α) : Action α := do
  match ← waitFor walk.run with
  | .ok a => return a
  | .error e => throw (.arena e)

/-! ## The installed arena -/

def isInstalled : Action Bool := return (← get).installed.isSome

def install (arena : Arena) : Action (Except Failure Unit) := do
  if ← isInstalled then
    return .error .alreadyInstalled
  else
    modify fun state => { state with installed := some arena }
    return .ok ()

def uninstall : Action Unit :=
  modify fun state => { state with installed := none }

/-- The installed arena.  A call that finds none ends the execution. -/
def arena : Action Arena := do
  match (← get).installed with
  | some arena => return arena
  | none => throw .notInstalled

def store (index : Nat) (words : List Word) : Action Unit :=
  modify fun state =>
    { state with installed := state.installed.map fun arena => arena.write index words }

def load (index : Nat) : Action Word := return (← arena).read index

/-! ## Calls of a running program -/

def equal (a b : Word) : Action Word := do
  follow ((← arena).equalWord a b)

def print (w : Word) : Action Word := do
  let text ← follow ((← arena).render w)
  emit (lineOf text)
  return w

def error (code : Int) : Action α := throw (.fault (Fault.ofCode code))

end Execution

end TaggedWords
