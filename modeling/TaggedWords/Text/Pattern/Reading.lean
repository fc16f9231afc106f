import TaggedWords.Text.Pattern.Bracket
import TaggedWords.Text.Pattern.Group

/-!
# Patterns

Whether a text is a regular expression.  Repetitions with a count are none.

* `Reading`             how far a pattern has been read;
* `Reading.step?`       reads one part of a pattern;
* `Pattern.depth?`      the depth of a pattern;
* `isPattern`           whether a text is a pattern that is not too deep.
-/

namespace TaggedWords

namespace Pattern

structure Reading where
  switches : Switches
  names : List (List Char)
  group : Group
  /-- The groups around it, the innermost first. -/
  outer : List Group
  deriving DecidableEq, Repr

namespace Reading

def start : Reading := ⟨.atStart, [], .empty .atStart, []⟩

def push (r : Reading) (part : Part) : Reading := { r with group := r.group.push part }

def addAtom? (r : Reading) (atom : Atom) : Option Reading :=
  if atom.isAdmitted r.switches then some (r.push (.operand 0)) else none

/-- Goes on behind an opening.  No two groups have one name. -/
def enter? (r : Reading) : Opening → Option Reading
  | .change switches => some { r.push .change with switches := switches }
  | .group name inside =>
    if name.any (r.names.contains ·) then none
    else some ⟨inside, name.toList ++ r.names, .empty r.switches, r.group :: r.outer⟩

/-- Closes the innermost group.  The switches are again those around it. -/
def leave? (r : Reading) : Option Reading :=
  match r.outer with
  | [] => none
  | o :: outer => some ⟨r.group.around, r.names, o.push (.operand (r.group.depth + 1)), outer⟩

/-- A repetition that is to be as short as possible has a question mark behind its sign. -/
def dropLazyMark : List Char → List Char
  | '?' :: rest => rest
  | cs => cs

def step? (r : Reading) (c : Char) (rest : List Char) : Option (Reading × List Char) :=
  match c with
  | '(' => do
    let (opening, rest) ← Opening.read? r.switches (r.switches.skip rest)
    return (← r.enter? opening, rest)
  | ')' => r.leave?.map fun r => (r, rest)
  | '|' => some ({ r with group := r.group.branch }, rest)
  | '[' => do
    let (depth, rest) ← Bracket.read? r.switches rest
    return (r.push (.operand depth), rest)
  | '?' | '*' | '+' => r.group.repeat?.map fun group => ({ r with group }, dropLazyMark rest)
  | '\x7b' => none
  | _ => do
    let (atom, rest) ← Atom.read? r.switches (c :: rest)
    return (← r.addAtom? atom, rest)

/-- Each call reads a character, which bounds the first argument. -/
def depth? : Nat → Reading → List Char → Option Nat
  | 0, _, _ => none
  | fuel + 1, r, cs =>
    match r.switches.skip cs with
    | [] => if r.outer.isEmpty then some r.group.depth else none
    | c :: rest => do
      let (r, rest) ← r.step? c rest
      depth? fuel r rest

end Reading

def depth? (cs : List Char) : Option Nat := Reading.depth? (cs.length + 1) .start cs

end Pattern

def isPattern (cs : List Char) : Bool := (Pattern.depth? cs).any (· ≤ Pattern.maxDepth)

end TaggedWords
