import TaggedWords.Arena.Basic
import TaggedWords.Word.Value

/-!
# Walks over an arena

Comparing and rendering follow references from record to record.  Such a walk gives an answer,
meets a record outside the arena, or never ends, because records may refer to each other in
circles.

A walk that nests too deep has come back to where it was before, so it never ends.  Every walk is
therefore defined with a bound on its nesting, which the size of the arena supplies.

Main names:

* `Walk`               an answer, an arena error, or no end (`Walk.endless`);
* `Visit`, `Traced`    a record of a work stack's progress, and an answer with such records;
* `Arena.places`       the number of places at which a record can start.
-/

namespace TaggedWords

/-- The outcome of following references: none if it never ends. -/
abbrev Walk (α : Type) := ExceptT ArenaError Option α

namespace Walk

variable {α β : Type}

def endless : Walk α := ExceptT.mk none

def ofExcept (outcome : Except ArenaError α) : Walk α := ExceptT.mk (some outcome)

@[simp] theorem run_endless : (endless : Walk α).run = none := rfl

theorem run_bind (walk : Walk α) (next : α → Walk β) :
    (walk >>= next).run =
      match walk.run with
      | none => none
      | some (.error e) => some (.error e)
      | some (.ok a) => (next a).run :=
  match walk with
  | none => rfl
  | some (.error _) => rfl
  | some (.ok _) => rfl

end Walk

/-- One tuple, or pair of tuples, that a work stack descends into. -/
structure Visit where
  length : Nat
  /-- The number of entries that wait on the stack meanwhile. -/
  depth : Nat
  deriving DecidableEq, Repr

/-- The outcome of a walk with a work stack, and the tuples that it descended into, in order. -/
structure Traced (α : Type) where
  visits : Array Visit
  outcome : Except ArenaError α

/-- The number of places at which a record can start: the even indices. -/
def Arena.places (arena : Arena) : Nat := (arena.size + 1) / 2

end TaggedWords
