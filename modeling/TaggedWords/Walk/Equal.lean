import TaggedWords.Walk.Basic

/-!
# Structural equality

Two words are equal if they are the same word, or if both refer to tuples of one length whose
elements are equal.  The elements are compared in order, up to the first difference.

Main names:

* `Arena.compare`   one step of a comparison: the same, different, or decided by pairs of elements;
* `Arena.equal`     whether two words are equal;
* `Arena.equalWord` the same as a boolean word.
-/

namespace TaggedWords

inductive Comparison where
  | same
  /-- The words differ, and are not tuples of one length. -/
  | different
  | elementwise (pairs : List (Word × Word))
  deriving DecidableEq, Repr

namespace Arena

def compareRecords (left right : List Word) : Comparison :=
  if left.length = right.length then .elementwise (left.zip right) else .different

/-- One step of a comparison.  A word is the same as itself whatever the arena holds; else the
record of the left word is looked up before that of the right word. -/
def compare (arena : Arena) (a b : Word) : Except ArenaError Comparison :=
  if a = b then .ok .same
  else
    match Value.decode a, Value.decode b with
    | .tuple left, .tuple right => do
      let left ← arena.record left
      let right ← arena.record right
      return compareRecords left right
    | _, _ => .ok .different

@[simp] theorem compare_self (arena : Arena) (a : Word) : arena.compare a a = .ok .same :=
  if_pos rfl

inductive Compared (arena : Arena) (a b : Word) : Except ArenaError Comparison → Prop where
  | identical (same : a = b) : Compared arena a b (.ok .same)
  | atomLeft {x : Atom} (ne : a ≠ b) (left : Value.decode a = .atom x) :
    Compared arena a b (.ok .different)
  | atomRight {r : Reference} {y : Atom} (ne : a ≠ b) (left : Value.decode a = .tuple r)
    (right : Value.decode b = .atom y) : Compared arena a b (.ok .different)
  | danglingLeft {r s : Reference} {e : ArenaError} (ne : a ≠ b)
    (left : Value.decode a = .tuple r) (right : Value.decode b = .tuple s)
    (missing : arena.record r = .error e) : Compared arena a b (.error e)
  | danglingRight {r s : Reference} {xs : List Word} {e : ArenaError} (ne : a ≠ b)
    (left : Value.decode a = .tuple r) (right : Value.decode b = .tuple s)
    (found : arena.record r = .ok xs) (missing : arena.record s = .error e) :
    Compared arena a b (.error e)
  | lengths {r s : Reference} {xs ys : List Word} (ne : a ≠ b)
    (left : Value.decode a = .tuple r) (right : Value.decode b = .tuple s)
    (foundLeft : arena.record r = .ok xs) (foundRight : arena.record s = .ok ys)
    (length : xs.length ≠ ys.length) : Compared arena a b (.ok .different)
  | elements {r s : Reference} {xs ys : List Word} (ne : a ≠ b)
    (left : Value.decode a = .tuple r) (right : Value.decode b = .tuple s)
    (foundLeft : arena.record r = .ok xs) (foundRight : arena.record s = .ok ys)
    (length : xs.length = ys.length) : Compared arena a b (.ok (.elementwise (xs.zip ys)))

theorem compared (arena : Arena) (a b : Word) : arena.Compared a b (arena.compare a b) := by
  by_cases hne : a = b
  · rw [compare, if_pos hne]
    exact .identical hne
  rw [compare, if_neg hne]
  cases ha : Value.decode a with
  | atom x => exact .atomLeft hne ha
  | tuple r =>
    cases hb : Value.decode b with
    | atom y => exact .atomRight hne ha hb
    | tuple s =>
      cases hr : arena.record r with
      | error e =>
        show arena.Compared a b (arena.record r >>= fun xs => _)
        rw [hr]
        exact .danglingLeft hne ha hb hr
      | ok xs =>
        cases hs : arena.record s with
        | error e =>
          show arena.Compared a b (arena.record r >>= fun xs => arena.record s >>= fun ys => _)
          rw [hr, hs]
          exact .danglingRight hne ha hb hr hs
        | ok ys =>
          show arena.Compared a b (arena.record r >>= fun xs => arena.record s >>= fun ys =>
            pure (compareRecords xs ys))
          rw [hr, hs]
          show arena.Compared a b (.ok (compareRecords xs ys))
          rw [compareRecords]
          split
          · next hlen => exact .elements hne ha hb hr hs hlen
          · next hlen => exact .lengths hne ha hb hr hs hlen

theorem compare_eq_error {arena : Arena} {a b : Word} {e : ArenaError}
    (h : arena.compare a b = .error e) : ∃ offset, e = .outOfBounds offset arena.size := by
  have hc := arena.compared a b
  rw [h] at hc
  cases hc with
  | danglingLeft _ _ _ missing => exact ⟨_, record_eq_error missing⟩
  | danglingRight _ _ _ _ missing => exact ⟨_, record_eq_error missing⟩

theorem length_lt_of_compare {arena : Arena} {a b : Word} {pairs : List (Word × Word)}
    (h : arena.compare a b = .ok (.elementwise pairs)) : pairs.length < arena.size := by
  have hc := arena.compared a b
  rw [h] at hc
  cases hc with
  | elements _ _ _ foundLeft _ _ =>
    have hlt := length_record_lt foundLeft
    rw [List.length_zip]
    omega

/-- Whether two words are equal, as far as tuples nest less deep than the bound. -/
def equalWithin (arena : Arena) : Nat → Word → Word → Walk Bool
  | 0, _, _ => .endless
  | bound + 1, a, b => do
    match ← Walk.ofExcept (arena.compare a b) with
    | .same => return true
    | .different => return false
    | .elementwise pairs => pairs.allM fun (x, y) => equalWithin arena bound x y

section
variable {arena : Arena} {a b : Word} {bound : Nat}

theorem run_equalWithin_of_error {e : ArenaError} (h : arena.compare a b = .error e) :
    (arena.equalWithin (bound + 1) a b).run = some (.error e) := by
  rw [equalWithin, h]
  rfl

theorem run_equalWithin_of_same (h : arena.compare a b = .ok .same) :
    (arena.equalWithin (bound + 1) a b).run = some (.ok true) := by
  rw [equalWithin, h]
  rfl

theorem run_equalWithin_of_different (h : arena.compare a b = .ok .different) :
    (arena.equalWithin (bound + 1) a b).run = some (.ok false) := by
  rw [equalWithin, h]
  rfl

theorem equalWithin_of_elementwise {pairs : List (Word × Word)}
    (h : arena.compare a b = .ok (.elementwise pairs)) :
    arena.equalWithin (bound + 1) a b = pairs.allM fun p => arena.equalWithin bound p.1 p.2 := by
  rw [equalWithin, h]
  rfl

end

/-- A comparison that nests deeper meets a pair of records for the second time. -/
def equalBound (arena : Arena) : Nat := arena.places * arena.places + 1

def equal (arena : Arena) (a b : Word) : Walk Bool :=
  arena.equalWithin arena.equalBound a b

def equalWord (arena : Arena) (a b : Word) : Walk Word :=
  Word.ofBool <$> arena.equal a b

end Arena

end TaggedWords
