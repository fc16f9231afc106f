import TaggedWords.Failure.Basic
import TaggedWords.Walk.Basic

/-!
# Log events

While it works, the runtime notes a few events.  Each has a level and an origin, by which a
filter selects, and is shown on one line.

* `Level`, `Origin`   what a filter selects by;
* `Event`             what happened;
* `Event.fields`      the names of what an event tells;
* `Event.line`        the line that shows an event.
-/

namespace TaggedWords

inductive Level where
  | error
  | warn
  | info
  | debug
  | trace
  deriving DecidableEq, Repr

namespace Level

/-- The number of a level.  Less important levels have larger numbers; zero stands for none. -/
def number : Level → Nat
  | .error => 1
  | .warn => 2
  | .info => 3
  | .debug => 4
  | .trace => 5

def label : Level → String
  | .error => "ERROR"
  | .warn => " WARN"
  | .info => " INFO"
  | .debug => "DEBUG"
  | .trace => "TRACE"

end Level

inductive Origin where
  | host
  | fault
  | equality
  | printer
  deriving DecidableEq, Repr

def Origin.target : Origin → String
  | .host => "tagrt::host"
  | .fault => "tagrt::fault"
  | .equality => "tagrt::equality"
  | .printer => "tagrt::printer"

inductive Event where
  | allocated (words : Nat)
  | returned (w : Word)
  | terminating (e : Failure)
  | comparing (v : Visit)
  | rendering (v : Visit)
  deriving DecidableEq, Repr

namespace Event

def level : Event → Level
  | .allocated _ | .returned _ | .terminating _ => .debug
  | .comparing _ | .rendering _ => .trace

def origin : Event → Origin
  | .allocated _ | .returned _ => .host
  | .terminating _ => .fault
  | .comparing _ => .equality
  | .rendering _ => .printer

/-- The names of the fields of an event, by which a filter may select as well. -/
def fields : Event → List String
  | .allocated _ => ["message", "words"]
  | .returned _ => ["message"]
  | .terminating _ => ["message", "status", "error"]
  | .comparing _ | .rendering _ => ["message", "len", "depth"]

def message : Event → String
  | .allocated words => "allocated arena words=" ++ toString words
  | .returned w => "entry point returned " ++ Hex.word w
  | .terminating e => "terminating status=" ++ toString e.exitStatus ++ " error=" ++ e.message
  | .comparing v =>
    "comparing tuples len=" ++ toString v.length ++ " depth=" ++ toString v.depth
  | .rendering v =>
    "rendering tuple len=" ++ toString v.length ++ " depth=" ++ toString v.depth

def line (event : Event) : String :=
  event.level.label ++ " " ++ event.message ++ "\n"

end Event

end TaggedWords
