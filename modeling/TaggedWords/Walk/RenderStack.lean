import TaggedWords.Walk.Render
import TaggedWords.Walk.Stack

/-!
# Rendering with a work stack

The text of `Arena.render`, with the words and the punctuation still to be written on a stack
instead of nested calls.  Each word remembers how deep tuples may still nest below it.

Main names:

* `Arena.renderTraced`    the text of a word, with the tuples that were descended into;
* `Arena.renderByStack`   the same without the trace.
-/

namespace TaggedWords

inductive PendingPiece where
  | word (bound : Nat) (w : Word)
  | text (t : String)
  deriving DecidableEq, Repr

namespace PendingPiece

/-- The pieces that a rendering takes at most, if no tuple has `width` elements. -/
def stepsWithin (width : Nat) : Nat → Nat
  | 0 => 1
  | bound + 1 => width * (stepsWithin width bound + 1) + 1

def steps (width : Nat) : List PendingPiece → Nat
  | [] => 0
  | .word bound _ :: rest => stepsWithin width bound + steps width rest
  | .text _ :: rest => steps width rest + 1

@[simp] theorem steps_append (width : Nat) (ps qs : List PendingPiece) :
    steps width (ps ++ qs) = steps width ps + steps width qs := by
  induction ps with
  | nil => simp [steps]
  | cons p rest ih =>
    cases p <;> simp only [List.cons_append, steps, ih] <;> omega

/-- The elements with commas between them, and the closing parenthesis. -/
def ofElements (bound : Nat) : List Word → List PendingPiece
  | [] => [.text ")"]
  | [w] => [.word bound w, .text ")"]
  | w :: rest => .word bound w :: .text "," :: ofElements bound rest

theorem steps_ofElements_le (width bound : Nat) (elements : List Word) :
    steps width (ofElements bound elements) ≤
      elements.length * (stepsWithin width bound + 1) + 1 := by
  fun_induction ofElements bound elements with
  | case1 => simp [steps]
  | case2 w => simp [steps]
  | case3 w rest _ ih =>
    rw [steps, steps, List.length_cons, Nat.succ_mul]
    omega

end PendingPiece

namespace Arena

/-- Writes the pending pieces in order behind `out`. -/
def renderPending (arena : Arena) (visits : Array Visit) (out : String)
    (pending : Stack PendingPiece) : Option (Traced String) :=
  match _ : pending.pop? with
  | none => some ⟨visits, .ok out⟩
  | some (.text t, rest) => renderPending arena visits (out ++ t) rest
  | some (.word 0 _, _) => none
  | some (.word (bound + 1) w, rest) =>
    match _ : arena.layer w with
    | .error e => some ⟨visits, .error e⟩
    | .ok (.atom a) => renderPending arena visits (out ++ a.text) rest
    | .ok (.tuple elements) =>
      renderPending arena (visits.push ⟨elements.length, rest.size⟩) (out ++ "(")
        (rest.push (PendingPiece.ofElements bound elements))
termination_by PendingPiece.steps arena.size pending.items
decreasing_by
  · next hp =>
    rw [Stack.items_of_pop?_eq_some hp, PendingPiece.steps]
    omega
  · next hp _ =>
    rw [Stack.items_of_pop?_eq_some hp, PendingPiece.steps, PendingPiece.stepsWithin]
    omega
  · next hp hl =>
    rw [Stack.items_of_pop?_eq_some hp, PendingPiece.steps, PendingPiece.stepsWithin,
      Stack.items_push, PendingPiece.steps_append]
    have hle := PendingPiece.steps_ofElements_le arena.size bound elements
    have hmul := Nat.mul_le_mul_right (PendingPiece.stepsWithin arena.size bound + 1)
      (length_lt_of_layer hl)
    rw [Nat.succ_mul] at hmul
    omega

def renderTraced (arena : Arena) (w : Word) : Option (Traced String) :=
  arena.renderPending #[] "" (.singleton (.word arena.renderBound w))

def renderByStack (arena : Arena) (w : Word) : Walk String :=
  ExceptT.mk ((arena.renderTraced w).map Traced.outcome)

end Arena

end TaggedWords
