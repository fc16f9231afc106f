import TaggedWords.Walk.Equal
import TaggedWords.Walk.Stack

/-!
# Structural equality with a work stack

The comparison of `Arena.equal`, with the pairs still to be compared on a stack instead of nested
calls.  Each pair remembers how deep tuples may still nest below it.

Main names:

* `Arena.equalTraced`        whether two words are equal, with the tuples that were descended into;
* `Arena.equalByStack`       the same without the trace;
* `Arena.equalWordByStack`   the same as a boolean word.
-/

namespace TaggedWords

structure PendingPair where
  bound : Nat
  left : Word
  right : Word
  deriving DecidableEq, Repr

namespace PendingPair

/-- The pairs that a comparison takes at most, if no tuple has more than `width` elements. -/
def stepsWithin (width : Nat) : Nat → Nat
  | 0 => 1
  | bound + 1 => width * stepsWithin width bound + 1

def steps (width : Nat) : List PendingPair → Nat
  | [] => 0
  | p :: pending => stepsWithin width p.bound + steps width pending

@[simp] theorem steps_cons (width : Nat) (p : PendingPair) (pending : List PendingPair) :
    steps width (p :: pending) = stepsWithin width p.bound + steps width pending := rfl

@[simp] theorem steps_append (width : Nat) (ps qs : List PendingPair) :
    steps width (ps ++ qs) = steps width ps + steps width qs := by
  induction ps with
  | nil => exact (Nat.zero_add _).symm
  | cons p ps ih => rw [List.cons_append, steps_cons, steps_cons, ih, Nat.add_assoc]

/-- The pairs of elements of two tuples, with the bound that is left for them. -/
def ofElements (bound : Nat) (pairs : List (Word × Word)) : List PendingPair :=
  pairs.map fun (x, y) => ⟨bound, x, y⟩

@[simp] theorem ofElements_nil (bound : Nat) : ofElements bound [] = [] := rfl

@[simp] theorem ofElements_cons (bound : Nat) (p : Word × Word) (pairs : List (Word × Word)) :
    ofElements bound (p :: pairs) = ⟨bound, p.1, p.2⟩ :: ofElements bound pairs := rfl

@[simp] theorem ofElements_append (bound : Nat) (pairs pairs' : List (Word × Word)) :
    ofElements bound (pairs ++ pairs') = ofElements bound pairs ++ ofElements bound pairs' :=
  List.map_append

def words (p : PendingPair) : Word × Word := (p.left, p.right)

theorem map_words_ofElements (bound : Nat) (pairs : List (Word × Word)) :
    (ofElements bound pairs).map words = pairs := by
  induction pairs with
  | nil => rfl
  | cons p rest ih => rw [ofElements_cons, List.map_cons, ih, words]

@[simp] theorem steps_ofElements (width bound : Nat) (pairs : List (Word × Word)) :
    steps width (ofElements bound pairs) = pairs.length * stepsWithin width bound := by
  induction pairs with
  | nil => simp [steps, ofElements]
  | cons pair rest ih =>
    rw [ofElements_cons, steps_cons, ih, List.length_cons, Nat.succ_mul, Nat.add_comm]

end PendingPair

namespace Arena

/-- Compares the pending pairs in order, up to the first difference. -/
def comparePending (arena : Arena) (visits : Array Visit) (pending : Stack PendingPair) :
    Option (Traced Bool) :=
  match _ : pending.pop? with
  | none => some ⟨visits, .ok true⟩
  | some (⟨0, _, _⟩, _) => none
  | some (⟨bound + 1, a, b⟩, rest) =>
    match _ : arena.compare a b with
    | .error e => some ⟨visits, .error e⟩
    | .ok .same => comparePending arena visits rest
    | .ok .different => some ⟨visits, .ok false⟩
    | .ok (.elementwise pairs) =>
      comparePending arena (visits.push ⟨pairs.length, rest.size⟩)
        (rest.push (PendingPair.ofElements bound pairs))
termination_by PendingPair.steps arena.size pending.items
decreasing_by
  · next hp _ =>
    rw [Stack.items_of_pop?_eq_some hp, PendingPair.steps_cons, PendingPair.stepsWithin]
    omega
  · next hp hc =>
    rw [Stack.items_of_pop?_eq_some hp, PendingPair.steps_cons, PendingPair.stepsWithin,
      Stack.items_push, PendingPair.steps_append, PendingPair.steps_ofElements]
    have hlt := length_lt_of_compare hc
    have hle := Nat.mul_le_mul_right (PendingPair.stepsWithin arena.size bound) (Nat.le_of_lt hlt)
    omega

def equalTraced (arena : Arena) (a b : Word) : Option (Traced Bool) :=
  arena.comparePending #[] (.singleton ⟨arena.equalBound, a, b⟩)

def equalByStack (arena : Arena) (a b : Word) : Walk Bool :=
  ExceptT.mk ((arena.equalTraced a b).map Traced.outcome)

def equalWordByStack (arena : Arena) (a b : Word) : Walk Word :=
  Word.ofBool <$> arena.equalByStack a b

end Arena

end TaggedWords
