import TaggedWords.Numeral.Hex
import TaggedWords.Walk.Basic

/-!
# Rendering words as text

Integers are written in decimal, booleans as `true` and `false`, tuples as their elements between
parentheses, and an unrecognized word as a note with its hexadecimal digits.

Main names:

* `Atom.text`      the text of an atom;
* `Arena.layer`    one step of rendering: an atom, or the elements of a tuple;
* `Arena.render`   the text of a word.
-/

namespace TaggedWords

def Atom.text : Atom → String
  | .int n => toString n
  | .bool true => "true"
  | .bool false => "false"
  | .unknown w => "Unknown value: " ++ Hex.word w

def tupleText (elements : List String) : String :=
  "(" ++ ",".intercalate elements ++ ")"

inductive Layer where
  | atom (a : Atom)
  | tuple (elements : List Word)
  deriving DecidableEq, Repr

namespace Arena

def layer (arena : Arena) (w : Word) : Except ArenaError Layer :=
  match Value.decode w with
  | .atom a => .ok (.atom a)
  | .tuple r => (arena.record r).map .tuple

section
variable {arena : Arena} {w : Word} {r : Reference}

theorem layer_of_atom {a : Atom} (value : Value.decode w = .atom a) :
    arena.layer w = .ok (.atom a) := by
  rw [layer, value]

theorem layer_of_dangling {e : ArenaError} (value : Value.decode w = .tuple r)
    (missing : arena.record r = .error e) : arena.layer w = .error e := by
  rw [layer, value]
  show (arena.record r).map Layer.tuple = _
  rw [missing]
  rfl

theorem layer_of_record {elements : List Word} (value : Value.decode w = .tuple r)
    (found : arena.record r = .ok elements) : arena.layer w = .ok (.tuple elements) := by
  rw [layer, value]
  show (arena.record r).map Layer.tuple = _
  rw [found]
  rfl

end

inductive Layered (arena : Arena) (w : Word) : Except ArenaError Layer → Prop where
  | atom {a : Atom} (value : Value.decode w = .atom a) : Layered arena w (.ok (.atom a))
  | dangling {r : Reference} {e : ArenaError} (value : Value.decode w = .tuple r)
    (missing : arena.record r = .error e) : Layered arena w (.error e)
  | tuple {r : Reference} {elements : List Word} (value : Value.decode w = .tuple r)
    (found : arena.record r = .ok elements) : Layered arena w (.ok (.tuple elements))

theorem layered (arena : Arena) (w : Word) : arena.Layered w (arena.layer w) := by
  cases hw : Value.decode w with
  | atom a =>
    rw [layer_of_atom hw]
    exact .atom hw
  | tuple r =>
    cases hr : arena.record r with
    | error e =>
      rw [layer_of_dangling hw hr]
      exact .dangling hw hr
    | ok elements =>
      rw [layer_of_record hw hr]
      exact .tuple hw hr

theorem layer_eq_error {arena : Arena} {w : Word} {e : ArenaError} (h : arena.layer w = .error e) :
    ∃ offset, e = .outOfBounds offset arena.size := by
  have hl := arena.layered w
  rw [h] at hl
  cases hl with
  | dangling _ missing => exact ⟨_, record_eq_error missing⟩

theorem length_lt_of_layer {arena : Arena} {w : Word} {elements : List Word}
    (h : arena.layer w = .ok (.tuple elements)) : elements.length < arena.size := by
  have hl := arena.layered w
  rw [h] at hl
  cases hl with
  | tuple _ found => exact length_record_lt found

/-- The text of a word, as far as tuples nest less deep than the bound. -/
def renderWithin (arena : Arena) : Nat → Word → Walk String
  | 0, _ => .endless
  | bound + 1, w => do
    match ← Walk.ofExcept (arena.layer w) with
    | .atom a => return a.text
    | .tuple elements => return tupleText (← elements.mapM (renderWithin arena bound))

section
variable {arena : Arena} {w : Word} {bound : Nat}

theorem run_renderWithin_of_error {e : ArenaError} (h : arena.layer w = .error e) :
    (arena.renderWithin (bound + 1) w).run = some (.error e) := by
  rw [renderWithin, h]
  rfl

theorem run_renderWithin_of_atom {a : Atom} (h : arena.layer w = .ok (.atom a)) :
    (arena.renderWithin (bound + 1) w).run = some (.ok a.text) := by
  rw [renderWithin, h]
  rfl

theorem renderWithin_of_tuple {elements : List Word} (h : arena.layer w = .ok (.tuple elements)) :
    arena.renderWithin (bound + 1) w =
      tupleText <$> elements.mapM (arena.renderWithin bound) := by
  rw [renderWithin, h]
  rfl

end

/-- A rendering that nests deeper meets a record inside itself. -/
def renderBound (arena : Arena) : Nat := arena.places + 1

def render (arena : Arena) (w : Word) : Walk String :=
  arena.renderWithin arena.renderBound w

end Arena

end TaggedWords
