import TaggedWords.Options.Basic

/-!
# Reading the command line

The arguments are read from left to right, and the first problem is the answer.  A setting whose
value is an argument of its own stays pending until the next option or the end: only then is its
value looked at.

Main names:

* `Token`                what a single argument is;
* `Given`                the settings made so far, in their order;
* `Reading`              the same, and the setting that is pending;
* `Options.request`      what a command line asks for in an environment.
-/

namespace TaggedWords

inductive Token where
  | terminator
  | setting (s : Setting) (value : Option String)
  | flag (f : Flag) (value : Option String)
  | unknownName (name : String)
  | unknownLetter (letter : Char)
  /-- All that does not begin like an option. -/
  | plain (text : String)
  deriving DecidableEq, Repr

namespace Token

def ofName (name : String) (value : Option String) : Token :=
  match Switch.ofName? name with
  | some (.setting s) => .setting s value
  | some (.flag f) => .flag f value
  | none => .unknownName name

/-- The value behind the first equals sign, if there is one. -/
def valueOf (cs : List Char) : Option String :=
  match cs.dropWhile (· ≠ '=') with
  | [] => none
  | _ :: value => some (String.ofList value)

/-- What an argument is.  Of letters behind a single dash, the first decides. -/
def ofArgument (argument : String) : Token :=
  match argument.toList with
  | ['-', '-'] => .terminator
  | '-' :: '-' :: cs => ofName (String.ofList (cs.takeWhile (· ≠ '='))) (valueOf cs)
  | '-' :: 'h' :: _ => .flag .help none
  | '-' :: 'V' :: _ => .flag .version none
  | '-' :: c :: _ => .unknownLetter c
  | _ => .plain argument

end Token

inductive Entry where
  | heapWords (words : Nat)
  | log (filter : String)
  deriving DecidableEq, Repr

namespace Entry

def setting : Entry → Setting
  | .heapWords _ => .heapWords
  | .log _ => .log

def words? : Entry → Option Nat
  | .heapWords words => some words
  | .log _ => none

def filter? : Entry → Option String
  | .heapWords _ => none
  | .log filter => some filter

def read (s : Setting) (value : String) : Except Rejection Entry :=
  match s with
  | .heapWords =>
    match readArenaSize value with
    | .ok words => .ok (.heapWords words)
    | .error e => .error (.badSize value e)
  | .log => .ok (.log value)

theorem setting_of_read {s : Setting} {value : String} {entry : Entry}
    (h : read s value = .ok entry) : entry.setting = s := by
  unfold read at h
  split at h
  · split at h
    · cases h
      rfl
    · cases h
  · cases h
    rfl

end Entry

structure Given where
  entries : List Entry := []
  deriving DecidableEq, Repr

namespace Given

def made (given : Given) : List Setting := given.entries.map Entry.setting

def heapWords (given : Given) : Option Nat := given.entries.findSome? Entry.words?

def log (given : Given) : Option String := given.entries.findSome? Entry.filter?

/-- Makes a setting.  A setting is made once, and that comes before a look at the value. -/
def accept (given : Given) (s : Setting) (value : String) : Except Rejection Given :=
  if s ∈ given.made then .error (.repeated s)
  else do
    let entry ← Entry.read s value
    return ⟨given.entries ++ [entry]⟩

/-- The settings that count as made once this one is tried, be its value good or bad. -/
def tried (given : Given) (s : Setting) : List Setting :=
  if s ∈ given.made then given.made.erase s else given.made ++ [s]

/-- The environment is looked at only where nothing is given. -/
def arenaSize (given : Given) (env : Environment) : Except Rejection Nat :=
  match given.heapWords, env.heapWords with
  | some words, _ => .ok words
  | none, none => .ok Options.default.heapWords
  | none, some text =>
    match readArenaSize text with
    | .ok words => .ok words
    | .error e => .error (.badSize text e)

def logFilter (given : Given) (env : Environment) : String :=
  (given.log <|> env.log).getD Options.default.logFilter

def complete (given : Given) (env : Environment) : Except Rejection Options := do
  let words ← given.arenaSize env
  return ⟨words, given.logFilter env⟩

end Given

structure Reading where
  given : Given := {}
  /-- The setting named last, and its value if that has been met. -/
  pending : Option (Setting × Option String) := none
  deriving DecidableEq, Repr

namespace Reading

def settle (r : Reading) : Except Rejection Given :=
  match r.pending with
  | none => .ok r.given
  | some (s, none) => .error (.missingValue s)
  | some (s, some value) => r.given.accept s value

/-- The settings that count as made once the pending one is tried.  Without a value it is not. -/
def tried (r : Reading) : List Setting :=
  match r.pending with
  | some (s, some _) => r.given.tried s
  | _ => r.given.made

def request (env : Environment) : Reading → List String → Except Rejection Request
  | r, [] => do
    let given ← r.settle
    return .run (← given.complete env)
  | r, argument :: rest =>
    match Token.ofArgument argument with
    | .terminator =>
      match rest with
      | [] => do
        let given ← r.settle
        return .run (← given.complete env)
      | extra :: _ => .error (.unknownArgument extra)
    | .setting s none => do
      let given ← r.settle
      request env ⟨given, some (s, none)⟩ rest
    | .setting s (some value) => do
      let given ← r.settle
      let given ← given.accept s value
      request env ⟨given, none⟩ rest
    | .flag f none => do
      let _ ← r.settle
      return .display f
    | .flag f (some value) => .error (.needlessValue f value r.given.made)
    | .unknownName name => .error (.unknownName name r.tried)
    | .unknownLetter letter => .error (.unknownArgument (String.ofList ['-', letter]))
    | .plain text =>
      match r.pending with
      | some (s, none) => request env ⟨r.given, some (s, some text)⟩ rest
      | _ => .error (.unknownArgument text)

end Reading

def Options.request (arguments : List String) (env : Environment) : Except Rejection Request :=
  Reading.request env {} arguments

end TaggedWords
