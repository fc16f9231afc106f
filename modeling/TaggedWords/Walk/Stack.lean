/-!
# Work stacks

A stack of entries that wait to be processed.  It knows its size, so that reading the size costs
nothing.

* `Stack.push`   puts a list of entries on top, the first of them uppermost;
* `Stack.pop?`   the uppermost entry and the rest.
-/

namespace TaggedWords

/-- Entries that wait to be processed, the next one first. -/
structure Stack (α : Type) where
  items : List α
  size : Nat
  size_eq : size = items.length

namespace Stack

variable {α : Type}

def singleton (a : α) : Stack α := ⟨[a], 1, rfl⟩

def push (s : Stack α) (entries : List α) : Stack α where
  items := entries ++ s.items
  size := s.size + entries.length
  size_eq := by rw [List.length_append, s.size_eq, Nat.add_comm]

def pop? : Stack α → Option (α × Stack α)
  | ⟨[], _, _⟩ => none
  | ⟨a :: rest, size, h⟩ =>
    some (a, ⟨rest, size - 1, by rw [h, List.length_cons, Nat.add_sub_cancel]⟩)

@[simp] theorem items_singleton (a : α) : (singleton a).items = [a] := rfl

@[simp] theorem items_push (s : Stack α) (entries : List α) :
    (s.push entries).items = entries ++ s.items := rfl

theorem items_of_pop?_eq_none {s : Stack α} (h : s.pop? = none) : s.items = [] := by
  obtain ⟨_ | _, _, _⟩ := s
  · rfl
  · contradiction

theorem items_of_pop?_eq_some {s rest : Stack α} {a : α} (h : s.pop? = some (a, rest)) :
    s.items = a :: rest.items := by
  obtain ⟨_ | _, _, _⟩ := s
  · contradiction
  · cases h
    rfl

end Stack

end TaggedWords
