import TaggedWords.Proofs.Walk.Sides

/-!
# Comparing in full

A comparison takes a word for equal to itself and does not look at the records below it.  Comparing
in full does: two tuples are always compared by their records, whichever words refer to them, and
only other words are compared as they are.

So a part that two tuples share is skipped by a comparison.  In full it may turn out to hold a
dangling reference, or to go round in a circle; but if it has an answer, the answer is that the part
is equal to itself.  Whatever answer the two tuples have in full, a comparison gives it too.

* `Arena.compareInFull`        one step that looks at the records of identical words as well;
* `Arena.equalInFullWithin`    the comparison by such steps, under a bound on its nesting;
* `eq_true_of_run_equalInFullWithin`   what it answers for identical words;
* `run_equalWithin_of_equalInFullWithin`   its answers are those of a comparison;
* `equalInFull_answers`        the same without bounds, by recursion and with a work stack.
-/

namespace TaggedWords

theorem Walk.eq_true_of_run_allM {α : Type} {f : α → Walk Bool} {xs : List α} {r : Bool}
    (hf : ∀ x ∈ xs, ∀ s, (f x).run = some (.ok s) → s = true)
    (h : (xs.allM f).run = some (.ok r)) : r = true := by
  induction xs with
  | nil =>
    cases h
    rfl
  | cons x xs ih =>
    rw [List.forall_mem_cons] at hf
    rw [List.allM_cons] at h
    obtain ⟨e, -, he⟩ | ⟨s, hs, hrest⟩ := run_bind_eq_some.mp h
    · contradiction
    cases hf.1 s hs
    exact ih hf.2 hrest

namespace Arena

variable {arena : Arena} {a b : Word} {bound : Nat} {r : Bool}

/-! ## one step -/

def compareInFull (arena : Arena) (a b : Word) : Except ArenaError Comparison :=
  match Value.decode a, Value.decode b with
  | .tuple left, .tuple right => do
    let left ← arena.record left
    let right ← arena.record right
    return compareRecords left right
  | _, _ => .ok (if a = b then .same else .different)

theorem compareInFull_of_ne (h : a ≠ b) : arena.compareInFull a b = arena.compare a b := by
  cases ha : Value.decode a with
  | atom c => simp [compareInFull, compare, h, ha]
  | tuple s => cases hb : Value.decode b <;> simp [compareInFull, compare, h, ha, hb]

/-- For identical words a step finds an atom, or the pairs of the elements with themselves. -/
theorem compareInFull_self {comparison : Comparison}
    (h : arena.compareInFull a a = .ok comparison) :
    comparison = .same ∨
      ∃ xs : List Word, comparison = .elementwise (xs.map fun x => (x, x)) := by
  rw [compareInFull] at h
  cases ha : Value.decode a with
  | atom c =>
    simp only [ha, if_pos] at h
    cases h
    exact .inl rfl
  | tuple s =>
    simp only [ha] at h
    cases hs : arena.record s with
    | error e =>
      rw [hs] at h
      contradiction
    | ok xs =>
      rw [hs] at h
      cases h
      refine .inr ⟨xs, ?_⟩
      rw [compareRecords, if_pos rfl, List.zip_eq_zipWith, List.zipWith_self]

/-! ## the comparison -/

def equalInFullWithin (arena : Arena) : Nat → Word → Word → Walk Bool
  | 0, _, _ => .endless
  | bound + 1, a, b => do
    match ← Walk.ofExcept (arena.compareInFull a b) with
    | .same => return true
    | .different => return false
    | .elementwise pairs => pairs.allM fun (x, y) => equalInFullWithin arena bound x y

/-- Comparing two words in full comes to an end: with a boolean word, or with an error. -/
def EqualInFullEndsWith (arena : Arena) (a b : Word) (outcome : Except ArenaError Word) : Prop :=
  ∃ bound, (Word.ofBool <$> arena.equalInFullWithin bound a b).run = some outcome

theorem eq_true_of_run_equalInFullWithin
    (h : (arena.equalInFullWithin bound a a).run = some (.ok r)) : r = true := by
  induction bound generalizing a r with
  | zero => contradiction
  | succ bound ih =>
    rw [equalInFullWithin] at h
    obtain ⟨e, -, he⟩ | ⟨comparison, hstep, hrest⟩ := Walk.run_bind_eq_some.mp h
    · contradiction
    obtain rfl | ⟨xs, rfl⟩ := compareInFull_self (Option.some.inj hstep)
    · cases hrest
      rfl
    · refine Walk.eq_true_of_run_allM (fun p hp s hs => ?_) hrest
      obtain ⟨x, -, rfl⟩ := List.mem_map.mp hp
      exact ih hs

/-- **An answer in full is the answer of the comparison**, under the same bound. -/
theorem run_equalWithin_of_equalInFullWithin
    (h : (arena.equalInFullWithin bound a b).run = some (.ok r)) :
    (arena.equalWithin bound a b).run = some (.ok r) := by
  induction bound generalizing a b r with
  | zero => contradiction
  | succ bound ih =>
    by_cases hab : a = b
    · subst hab
      rw [eq_true_of_run_equalInFullWithin h]
      exact run_equalWithin_of_same (arena.compare_self a)
    rw [equalInFullWithin, compareInFull_of_ne hab] at h
    rw [equalWithin]
    obtain ⟨e, -, he⟩ | ⟨comparison, hstep, hrest⟩ := Walk.run_bind_eq_some.mp h
    · contradiction
    rw [Walk.run_bind_of_ok hstep]
    cases comparison with
    | same => exact hrest
    | different => exact hrest
    | elementwise pairs => exact Walk.run_allM_of_ok (fun p _ s hs => ih hs) hrest

theorem comparesTo_of_equalInFull {r : Word} (h : arena.EqualInFullEndsWith a b (.ok r)) :
    arena.ComparesTo a b (.ok r) := by
  obtain ⟨bound, hbound⟩ := h
  obtain ⟨v, hv, hword⟩ := Walk.run_map_eq_ok.mp hbound
  exact comparesTo_of_equalEndsWith
    (equalEndsWith_ok_iff.mpr ⟨bound, v, run_equalWithin_of_equalInFullWithin hv, hword⟩)

/-- **Skipping what two words share changes no answer** that comparing them in full comes to. -/
theorem equalInFull_answers (arena : Arena) (a b r : Word) :
    (arena.EqualInFullEndsWith a b (.ok r) → arena.ComparesTo a b (.ok r)) ∧
    (arena.EqualEndsWith a b (.ok r) → ∀ outcome, arena.EqualInFullEndsWith a b outcome →
      outcome = .ok r ∨ ∃ e, outcome = .error e) := by
  refine ⟨comparesTo_of_equalInFull, fun hends outcome hfull => ?_⟩
  cases outcome with
  | error e => exact .inr ⟨e, rfl⟩
  | ok v =>
    have hv := (comparesTo_of_equalInFull hfull).equalWord
    rw [run_equalWord_eq_some_iff.mpr hends] at hv
    exact .inl (Option.some.inj hv.symm)

/-- Tuples that share a dangling reference are equal, but in full the reference is reported. -/
theorem equalInFull_answers_shared :
    (⟨#[2, 33, 2, 0, 2, 33, 4, 0, 1, 6]⟩ : Arena).ComparesTo 1 17 (.ok falseWord) ∧
    (⟨#[1, 801, 1, 801]⟩ : Arena).EqualEndsWith 1 9 (.ok trueWord) ∧
    (⟨#[1, 801, 1, 801]⟩ : Arena).EqualInFullEndsWith 1 9 (.error (.outOfBounds 800 4)) ∧
    (∀ outcome, (⟨#[1, 801, 1, 801]⟩ : Arena).EqualInFullEndsWith 1 9 outcome →
      outcome = .ok trueWord ∨ ∃ e, outcome = .error e) := by
  have hshared : (⟨#[1, 801, 1, 801]⟩ : Arena).EqualEndsWith 1 9 (.ok trueWord) := ⟨2, by decide⟩
  exact ⟨(equalInFull_answers _ 1 17 falseWord).1 ⟨3, by decide⟩, hshared, ⟨2, by decide⟩,
    (equalInFull_answers _ 1 9 trueWord).2 hshared⟩

end Arena

end TaggedWords
