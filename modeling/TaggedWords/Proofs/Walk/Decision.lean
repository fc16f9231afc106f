import TaggedWords.Proofs.Walk.EqualLoop

/-!
# The pair that decides a comparison

A comparison goes through pairs of corresponding words, from left to right and each pair before its
elements, and never below two words that are the same.  The first pair that is not left open by its
elements decides: its words differ and are no tuples of one length, or it has a record that is not
inside the arena.  If no pair decides, the words are equal.

Nothing else enters into the outcome, so it is told here by two relations on words that know of no
bound and of no order of evaluation.

* `Arena.verdict`     what a pair tells about a comparison, unless it leaves it to its elements;
* `Arena.Alike`       no pair decides, and there are finitely many;
* `Arena.DecidedAt`   the first pair that decides, and the way to it;
* `run_equalWithin_iff`       a comparison ends with what the deciding pair tells;
* `Alike.exists_after`, `DecidedAt.exists_after`   the loop comes to that pair as well.
-/

namespace TaggedWords

/-! ## walks over lists, up to the first element that is not true -/

namespace Walk

variable {α : Type} {f : α → Walk Bool} {xs before later : List α} {x : α}
  {o : Except ArenaError Bool}

theorem allM_of_forall_true (h : ∀ y ∈ before, (f y).run = some (.ok true)) (rest : List α) :
    (before ++ rest).allM f = rest.allM f := by
  apply ExceptT.ext
  rw [allM_append, run_bind_of_ok (run_allM_eq_true.mpr h)]
  rfl

theorem run_allM_of_split (h : ∀ y ∈ before, (f y).run = some (.ok true))
    (hx : (f x).run = some o) (ho : o ≠ .ok true) :
    ((before ++ x :: later).allM f).run = some o := by
  rw [allM_of_forall_true h, List.allM_cons]
  match o, ho with
  | .error e, _ => exact run_bind_of_error hx _
  | .ok false, _ => exact run_bind_of_ok hx _
  | .ok true, ho => exact absurd rfl ho

theorem exists_split_of_run_allM (h : (xs.allM f).run = some o) (ho : o ≠ .ok true) :
    ∃ before x later, xs = before ++ x :: later ∧ (∀ y ∈ before, (f y).run = some (.ok true)) ∧
      (f x).run = some o := by
  induction xs with
  | nil =>
    cases h
    contradiction
  | cons x xs ih =>
    rw [List.allM_cons] at h
    obtain ⟨e, he, rfl⟩ | ⟨b, hb, hrest⟩ := run_bind_eq_some.mp h
    · exact ⟨[], x, xs, rfl, fun y hy => absurd hy List.not_mem_nil, he⟩
    cases b with
    | false =>
      cases hrest
      exact ⟨[], x, xs, rfl, fun y hy => absurd hy List.not_mem_nil, hb⟩
    | true =>
      obtain ⟨before, y, later, rfl, hbefore, hy⟩ := ih hrest
      exact ⟨x :: before, y, later, rfl, List.forall_mem_cons.mpr ⟨hb, hbefore⟩, hy⟩

theorem exists_bound_forall {f : Nat → α → Walk Bool}
    (succ : ∀ n x, (f n x).Within (f (n + 1) x))
    (h : ∀ x ∈ xs, ∃ n, (f n x).run = some (.ok true)) :
    ∃ n, ∀ x ∈ xs, (f n x).run = some (.ok true) := by
  induction xs with
  | nil => exact ⟨0, fun x hx => absurd hx List.not_mem_nil⟩
  | cons x xs ih =>
    rw [List.forall_mem_cons] at h
    obtain ⟨n, hn⟩ := h.1
    obtain ⟨m, hm⟩ := ih h.2
    refine ⟨max n m, List.forall_mem_cons.mpr ⟨?_, fun y hy => ?_⟩⟩
    · exact within_of_le succ (Nat.le_max_left n m) x _ hn
    · exact within_of_le succ (Nat.le_max_right n m) y _ (hm y hy)

end Walk

namespace Arena

variable {arena : Arena} {a b x y : Word} {bound : Nat} {o : Except ArenaError Bool}
  {path : List Nat}

/-! ## pairs that decide -/

/-- What a pair of words tells about a comparison, unless it leaves it to its elements. -/
def verdict (arena : Arena) (x y : Word) : Option (Except ArenaError Bool) :=
  match arena.compare x y with
  | .error e => some (.error e)
  | .ok .different => some (.ok false)
  | .ok .same | .ok (.elementwise _) => none

theorem verdict_of_error {e : ArenaError} (h : arena.compare x y = .error e) :
    arena.verdict x y = some (.error e) := by
  rw [verdict, h]

theorem verdict_of_different (h : arena.compare x y = .ok .different) :
    arena.verdict x y = some (.ok false) := by
  rw [verdict, h]

theorem verdict_eq_some_iff : arena.verdict x y = some o ↔
    (∃ e, arena.compare x y = .error e ∧ o = .error e) ∨
      arena.compare x y = .ok .different ∧ o = .ok false := by
  rw [verdict]
  rcases arena.compare x y with e | _ | _ | pairs <;> simp [eq_comm]

theorem ne_true_of_verdict (h : arena.verdict x y = some o) : o ≠ .ok true := by
  rcases verdict_eq_some_iff.mp h with ⟨e, -, rfl⟩ | ⟨-, rfl⟩ <;> simp

theorem run_equalWithin_of_verdict (h : arena.verdict x y = some o) :
    (arena.equalWithin (bound + 1) x y).run = some o := by
  rcases verdict_eq_some_iff.mp h with ⟨e, hc, rfl⟩ | ⟨hc, rfl⟩
  · exact run_equalWithin_of_error hc
  · exact run_equalWithin_of_different hc

/-- The words are the same, or have elements that are alike in pairs: no pair decides. -/
inductive Alike (arena : Arena) : Word → Word → Prop where
  | same (a : Word) : Alike arena a a
  | elements {a b : Word} {pairs : List (Word × Word)}
    (found : arena.compare a b = .ok (.elementwise pairs))
    (alike : ∀ p ∈ pairs, Alike arena p.1 p.2) : Alike arena a b

/-- The comparison of two words is decided by the pair of `x` and `y`, to which the path leads: it
tells for each tuple on the way how many elements are passed, all of them alike. -/
inductive DecidedAt (arena : Arena) : Word → Word → List Nat → Word → Word → Prop where
  | here {x y : Word} {o : Except ArenaError Bool} (decisive : arena.verdict x y = some o) :
    DecidedAt arena x y [] x y
  | element {a b x y : Word} {before later : List (Word × Word)} {p : Word × Word} {path : List Nat}
    (found : arena.compare a b = .ok (.elementwise (before ++ p :: later)))
    (passed : ∀ q ∈ before, Alike arena q.1 q.2) (inside : DecidedAt arena p.1 p.2 path x y) :
    DecidedAt arena a b (before.length :: path) x y

/-! ## comparing ends with what the deciding pair tells -/

theorem Alike.exists_bound (h : arena.Alike a b) :
    ∃ bound, (arena.equalWithin bound a b).run = some (.ok true) := by
  induction h with
  | same a => exact ⟨1, run_equalWithin_of_same (compare_self arena a)⟩
  | elements found _ ih =>
    obtain ⟨bound, hbound⟩ := Walk.exists_bound_forall arena.equalWithin_succ ih
    refine ⟨bound + 1, ?_⟩
    rw [equalWithin_of_elementwise found]
    exact Walk.run_allM_eq_true.mpr hbound

theorem DecidedAt.exists_bound (h : arena.DecidedAt a b path x y)
    (ho : arena.verdict x y = some o) :
    ∃ bound, (arena.equalWithin bound a b).run = some o := by
  induction h with
  | here => exact ⟨1, run_equalWithin_of_verdict ho⟩
  | @element a b x y before later p path found passed _ ih =>
    obtain ⟨n, hn⟩ := Walk.exists_bound_forall arena.equalWithin_succ
      fun q hq => (passed q hq).exists_bound
    obtain ⟨m, hm⟩ := ih ho
    have hpassed : ∀ q ∈ before, (arena.equalWithin (max n m) q.1 q.2).run = some (.ok true) :=
      fun q hq => Walk.within_of_le arena.equalWithin_succ (Nat.le_max_left n m) q _ (hn q hq)
    have hinside := Walk.within_of_le arena.equalWithin_succ (Nat.le_max_right n m) p _ hm
    refine ⟨max n m + 1, ?_⟩
    rw [equalWithin_of_elementwise found]
    exact Walk.run_allM_of_split hpassed hinside (ne_true_of_verdict ho)

theorem alike_of_run_equalWithin (h : (arena.equalWithin bound a b).run = some (.ok true)) :
    arena.Alike a b := by
  induction bound generalizing a b with
  | zero => contradiction
  | succ bound ih =>
    cases hc : arena.compare a b with
    | error e =>
      rw [run_equalWithin_of_error hc] at h
      cases h
    | ok comparison =>
      cases comparison with
      | same =>
        have hcompared := arena.compared a b
        rw [hc] at hcompared
        cases hcompared with
        | identical same =>
          rw [same]
          exact .same b
      | different =>
        rw [run_equalWithin_of_different hc] at h
        cases h
      | elementwise pairs =>
        rw [equalWithin_of_elementwise hc, Walk.run_allM_eq_true] at h
        exact .elements hc fun p hp => ih (h p hp)

theorem exists_decidedAt_of_run_equalWithin (h : (arena.equalWithin bound a b).run = some o)
    (ho : o ≠ .ok true) : ∃ path x y, arena.DecidedAt a b path x y ∧ arena.verdict x y = some o := by
  induction bound generalizing a b with
  | zero => contradiction
  | succ bound ih =>
    cases hc : arena.compare a b with
    | error e =>
      rw [run_equalWithin_of_error hc] at h
      cases h
      exact ⟨[], a, b, .here (verdict_of_error hc), verdict_of_error hc⟩
    | ok comparison =>
      cases comparison with
      | same =>
        rw [run_equalWithin_of_same hc] at h
        cases h
        contradiction
      | different =>
        rw [run_equalWithin_of_different hc] at h
        cases h
        exact ⟨[], a, b, .here (verdict_of_different hc), verdict_of_different hc⟩
      | elementwise pairs =>
        rw [equalWithin_of_elementwise hc] at h
        obtain ⟨before, p, later, rfl, hbefore, hp⟩ := Walk.exists_split_of_run_allM h ho
        obtain ⟨path, x, y, hinside, hverdict⟩ := ih hp
        exact ⟨_, x, y, .element hc (fun q hq => alike_of_run_equalWithin (hbefore q hq)) hinside,
          hverdict⟩

/-- **A comparison ends with what the deciding pair tells**, or finds the words equal if no pair
decides. -/
theorem run_equalWithin_iff : (∃ bound, (arena.equalWithin bound a b).run = some o) ↔
    o = .ok true ∧ arena.Alike a b ∨
      ∃ path x y, arena.DecidedAt a b path x y ∧ arena.verdict x y = some o := by
  constructor
  · rintro ⟨bound, h⟩
    by_cases ho : o = .ok true
    · rw [ho] at h
      exact .inl ⟨ho, alike_of_run_equalWithin h⟩
    · exact .inr (exists_decidedAt_of_run_equalWithin h ho)
  · rintro (⟨rfl, halike⟩ | ⟨path, x, y, hdecided, hverdict⟩)
    · exact halike.exists_bound
    · exact hdecided.exists_bound hverdict

/-! ## the loop comes to the deciding pair -/

theorem exists_after_of_forall {pairs : List (Word × Word)}
    (h : ∀ p ∈ pairs, ∀ rest, ∃ n, Loop.after arena.compareRound n (p :: rest) = some rest)
    (rest : List (Word × Word)) :
    ∃ n, Loop.after arena.compareRound n (pairs ++ rest) = some rest := by
  induction pairs with
  | nil => exact ⟨0, rfl⟩
  | cons p pairs ih =>
    rw [List.forall_mem_cons] at h
    obtain ⟨n, hn⟩ := h.1 (pairs ++ rest)
    obtain ⟨m, hm⟩ := ih h.2
    exact ⟨n + m, Loop.after_add hn hm⟩

theorem Alike.exists_after (h : arena.Alike a b) (rest : List (Word × Word)) :
    ∃ n, Loop.after arena.compareRound n ((a, b) :: rest) = some rest := by
  induction h generalizing rest with
  | same a =>
    have hround : arena.compareRound ((a, a) :: rest) = .next rest := by
      rw [compareRound, compare_self]
    exact ⟨1, Loop.after_succ_of_next hround⟩
  | @elements a b pairs found _ ih =>
    have hround : arena.compareRound ((a, b) :: rest) = .next (pairs ++ rest) := by
      rw [compareRound, found]
    obtain ⟨n, hn⟩ := exists_after_of_forall ih rest
    exact ⟨n + 1, (Loop.after_succ_of_next hround).trans hn⟩

theorem DecidedAt.exists_after (h : arena.DecidedAt a b path x y) (rest : List (Word × Word)) :
    ∃ n pending, Loop.after arena.compareRound n ((a, b) :: rest) = some ((x, y) :: pending) := by
  induction h generalizing rest with
  | here => exact ⟨0, rest, rfl⟩
  | @element a b x y before later p path found passed _ ih =>
    have hround : arena.compareRound ((a, b) :: rest) = .next (before ++ (p :: later ++ rest)) := by
      rw [compareRound, found, ← List.append_assoc]
    obtain ⟨n, hn⟩ := exists_after_of_forall (fun q hq => (passed q hq).exists_after)
      (p :: later ++ rest)
    obtain ⟨m, pending, hm⟩ := ih (later ++ rest)
    exact ⟨n + m + 1, pending, (Loop.after_succ_of_next hround).trans (Loop.after_add hn hm)⟩

end Arena

end TaggedWords
