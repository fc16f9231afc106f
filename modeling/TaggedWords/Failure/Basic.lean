import TaggedWords.Failure.ArenaError
import TaggedWords.Failure.Fault

/-!
# Failures

A failure ends an execution.  It is reported on one line and decides the exit status.

* `Failure`             a fault, an arena error, a call without an arena, an arena too many, or
                        output that could not be written;
* `Failure.message`     the text of a failure;
* `Failure.exitStatus`  the exit status that a failure asks for;
* `Failure.report`      what is written about a failure.
-/

namespace TaggedWords

inductive Failure where
  | fault (f : Fault)
  | arena (e : ArenaError)
  | notInstalled
  | alreadyInstalled
  | output (reason : String)
  deriving DecidableEq, Repr

namespace Failure

/-- The exit status of every failure that is no fault. -/
def internalStatus : Int := 70

def message : Failure → String
  | .fault f => f.message
  | .arena e => e.message
  | .notInstalled => "runtime called before an arena was installed"
  | .alreadyInstalled => "an arena is already installed on this thread"
  | .output reason => "output failed: " ++ reason

def exitStatus : Failure → Int
  | .fault f => f.code
  | _ => internalStatus

/-- Whether the report of a failure ends its line.  That of a known fault does not. -/
def endsLine : Failure → Bool
  | .fault f => !f.isKnown
  | _ => true

def report (e : Failure) : String :=
  "Error: " ++ e.message ++ (if e.endsLine then "\n" else "")

end Failure

end TaggedWords
