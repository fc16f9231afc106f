import TaggedWords.Text.Alphanumeric
import TaggedWords.Text.Pattern.Depth
import TaggedWords.Text.Pattern.Switches

/-!
# Groups of a pattern

A group holds branches, of which one has to match.  The whole pattern counts as a group, too.

* `Group`           what has been read of a group;
* `Group.depth`     how deep its parts lie in each other;
* `Opening`         what an opening parenthesis leads to;
* `Opening.read?`   the opening at the beginning of a text.
-/

namespace TaggedWords

namespace Pattern

inductive Part where
  /-- A change of switches, which cannot be repeated. -/
  | change
  | operand (depth : Nat)
  deriving DecidableEq, Repr

def Part.depth : Part → Nat
  | .change => 0
  | .operand depth => depth

structure Group where
  around : Switches
  branches : List Nat
  /-- The parts of the last branch, the last part first. -/
  parts : List Part
  deriving DecidableEq, Repr

namespace Group

def empty (around : Switches) : Group := ⟨around, [], []⟩

def branchDepth (g : Group) : Nat := rowDepth (g.parts.map Part.depth)

def depth (g : Group) : Nat := rowDepth (g.branchDepth :: g.branches)

def push (g : Group) (part : Part) : Group := { g with parts := part :: g.parts }

def branch (g : Group) : Group := ⟨g.around, g.branchDepth :: g.branches, []⟩

/-- Repeats the last part, which makes a part around it.  None if there is nothing to repeat. -/
def repeat? (g : Group) : Option Group :=
  match g.parts with
  | .operand depth :: parts => some { g with parts := .operand (depth + 1) :: parts }
  | _ => none

end Group

/-- A letter or a low line, and then also numbers, full stops and brackets. -/
def isGroupName : List Char → Bool
  | [] => false
  | c :: rest =>
    (c = '_' || isLetter c)
      && rest.all fun c => isAlphanumeric c || c = '_' || c = '.' || c = '[' || c = ']'

inductive Opening where
  | group (name : Option (List Char)) (inside : Switches)
  /-- No group, but switches for the rest of the group around. -/
  | change (switches : Switches)
  deriving DecidableEq, Repr

namespace Opening

def named? (s : Switches) (cs : List Char) : Option (Opening × List Char) :=
  let name := cs.takeWhile (· ≠ '>')
  match cs.dropWhile (· ≠ '>') with
  | _ :: rest => if isGroupName name then some (.group (some name) s, rest) else none
  | [] => none

def read? (s : Switches) : List Char → Option (Opening × List Char)
  | '?' :: 'P' :: '<' :: rest => named? s rest
  | '?' :: '<' :: rest => named? s rest
  | '?' :: rest => do
    let isSwitch := fun c => c ≠ ':' && c ≠ ')'
    let letters := rest.takeWhile isSwitch
    let switches ← s.change? letters
    match rest.dropWhile isSwitch with
    | ':' :: rest => some (.group none switches, rest)
    | _ :: rest => if letters.isEmpty then none else some (.change switches, rest)
    | [] => none
  | rest => some (.group none s, rest)

end Opening

end Pattern

end TaggedWords
