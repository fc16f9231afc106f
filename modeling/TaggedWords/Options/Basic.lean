import TaggedWords.Arena.Basic
import TaggedWords.Numeral.Count

/-!
# Options

The host has two settings: the number of words of the arena and the log filter.  Each comes from
the command line, else from the environment, else from a default.

Main names:

* `Options`        both settings (`Options.default`);
* `Setting`        the name of a setting;
* `Flag`           an option that asks for a text;
* `Switch`         an option of the command line, by its name;
* `Environment`    the settings that the environment makes;
* `readArenaSize`  the arena size that a text stands for;
* `Rejection`      why a command line is refused;
* `Request`        what an accepted command line asks for.
-/

namespace TaggedWords

structure Options where
  heapWords : Nat
  logFilter : String
  deriving DecidableEq, Repr

def Options.default : Options := ⟨Arena.defaultWords, "warn"⟩

inductive Setting where
  | heapWords
  | log
  deriving DecidableEq, Repr

structure Environment where
  heapWords : Option String
  log : Option String
  deriving DecidableEq, Repr

inductive Flag where
  | help
  | version
  deriving DecidableEq, Repr

inductive Switch where
  | setting (s : Setting)
  | flag (f : Flag)
  deriving DecidableEq, Repr

namespace Switch

/-- All options, in the order of the help text. -/
def all : List Switch := [.setting .heapWords, .setting .log, .flag .help, .flag .version]

def name : Switch → String
  | .setting .heapWords => "heap-words"
  | .setting .log => "log"
  | .flag .help => "help"
  | .flag .version => "version"

def ofName? (name : String) : Option Switch := all.find? fun switch => switch.name = name

theorem ofName?_name (switch : Switch) : ofName? switch.name = some switch := by
  rcases switch with s | f
  · cases s <;> decide
  · cases f <;> decide

end Switch

inductive SizeError where
  | notACount (e : Count.Error)
  | outOfRange
  deriving DecidableEq, Repr

def readArenaSize (text : String) : Except SizeError Nat :=
  match Count.read text.toList with
  | .error e => .error (.notACount e)
  | .ok words =>
    if Arena.minWords ≤ words ∧ words ≤ Arena.maxWords then .ok words else .error .outOfRange

theorem checkSize_of_readArenaSize {text : String} {words : Nat}
    (h : readArenaSize text = .ok words) : Arena.checkSize words = .ok () := by
  unfold readArenaSize at h
  split at h
  · cases h
  · split at h
    · next hw =>
      cases h
      exact (Arena.checkSize_eq_ok_iff _).mpr hw
    · cases h

inductive Rejection where
  | badSize (text : String) (e : SizeError)
  | missingValue (s : Setting)
  | unknownArgument (text : String)
  /-- No option has the name, which comes after these settings. -/
  | unknownName (name : String) (made : List Setting)
  | repeated (s : Setting)
  /-- A flag has a value, and comes after these settings. -/
  | needlessValue (flag : Flag) (value : String) (made : List Setting)
  deriving DecidableEq, Repr

inductive Request where
  | run (options : Options)
  | display (flag : Flag)
  deriving DecidableEq, Repr

end TaggedWords
