import TaggedWords.Proofs.Walk.Decision
import TaggedWords.Proofs.Walk.Exchange

/-!
# The order of two compared words

Comparing `b` with `a` goes through the pairs of comparing `a` with `b`, each with its sides
exchanged, and comes to the same deciding pair.  So it ends alike, up to one thing: where both words
of that pair have a record that is not inside the arena, each comparison names the one that it looks
up first.

* `Alike.swap`, `DecidedAt.swap`   the same pair decides with the sides exchanged;
* `after_swap`               the two loops run in step;
* `Arena.NamesFirst`         an error names the first word of a pair whose record is missing;
* `Arena.SameUpToRecord`     two comparisons end alike, except for the record that is named;
* `Arena.BreakOffAt`         two comparisons break off at one pair;
* `equal_commutes`           comparing commutes, by recursion and with a work stack.
-/

namespace TaggedWords

namespace Arena

variable {arena : Arena} {a b x y : Word} {path : List Nat} {e e' : ArenaError}

/-! ## the deciding pair with its sides exchanged -/

theorem exists_error_swap (h : arena.compare x y = .error e) :
    ∃ e', arena.compare y x = .error e' := by
  cases hc : arena.compare y x with
  | error e' => exact ⟨e', rfl⟩
  | ok comparison =>
    rw [compare_swap hc] at h
    contradiction

theorem exists_verdict_swap {o : Except ArenaError Bool} (h : arena.verdict x y = some o) :
    ∃ o', arena.verdict y x = some o' := by
  rcases verdict_eq_some_iff.mp h with ⟨e, hc, -⟩ | ⟨hc, -⟩
  · obtain ⟨e', hc'⟩ := exists_error_swap hc
    exact ⟨_, verdict_of_error hc'⟩
  · exact ⟨_, verdict_of_different (compare_swap hc)⟩

theorem Alike.swap (h : arena.Alike a b) : arena.Alike b a := by
  induction h with
  | same a => exact .same a
  | elements found _ ih =>
    refine .elements (compare_swap found) fun q hq => ?_
    obtain ⟨p, hp, rfl⟩ := List.mem_map.mp hq
    exact ih p hp

theorem DecidedAt.swap (h : arena.DecidedAt a b path x y) : arena.DecidedAt b a path y x := by
  induction h with
  | here decisive =>
    obtain ⟨o', ho'⟩ := exists_verdict_swap decisive
    exact .here ho'
  | @element a b x y before later p path found passed _ ih =>
    have hfound := compare_swap found
    rw [Comparison.swap, List.map_append, List.map_cons] at hfound
    have hpassed : ∀ q ∈ before.map Prod.swap, arena.Alike q.1 q.2 := by
      intro q hq
      obtain ⟨p, hp, rfl⟩ := List.mem_map.mp hq
      exact (passed p hp).swap
    have hdecided := DecidedAt.element hfound hpassed ih
    rwa [List.length_map] at hdecided

/-! ## loops that run in step -/

theorem compareRound_swap {pairs pairs' : List (Word × Word)}
    (h : arena.compareRound pairs = .next pairs') :
    arena.compareRound (pairs.map Prod.swap) = .next (pairs'.map Prod.swap) := by
  match pairs with
  | [] => contradiction
  | (a, b) :: rest =>
    rw [compareRound] at h
    show arena.compareRound ((b, a) :: rest.map Prod.swap) = _
    rw [compareRound]
    split at h
    · contradiction
    · next hc =>
      cases h
      rw [compare_swap hc]
      rfl
    · contradiction
    · next elements hc =>
      cases h
      rw [compare_swap hc, Comparison.swap, List.map_append]

theorem after_swap {n : Nat} {pairs pairs' : List (Word × Word)}
    (h : Loop.after arena.compareRound n pairs = some pairs') :
    Loop.after arena.compareRound n (pairs.map Prod.swap) = some (pairs'.map Prod.swap) := by
  induction n generalizing pairs with
  | zero =>
    cases h
    rfl
  | succ n ih =>
    rw [Loop.after] at h
    split at h
    · next next hround =>
      rw [Loop.after_succ_of_next (compareRound_swap hround)]
      exact ih h
    · contradiction

/-! ## the record that is named -/

def IsMissing (arena : Arena) (r : Reference) : Prop := ∃ e, arena.record r = .error e

/-- The error names the first of two words that refers to a missing record. -/
inductive NamesFirst (arena : Arena) (x y : Word) : ArenaError → Prop where
  | left {r s : Reference} (left : Value.decode x = .tuple r) (right : Value.decode y = .tuple s)
    (missing : arena.IsMissing r) : NamesFirst arena x y (.outOfBounds r.offset arena.size)
  | right {r s : Reference} (left : Value.decode x = .tuple r) (right : Value.decode y = .tuple s)
    (found : ¬ arena.IsMissing r) (missing : arena.IsMissing s) :
    NamesFirst arena x y (.outOfBounds s.offset arena.size)

theorem namesFirst_of_compare (h : arena.compare x y = .error e) : arena.NamesFirst x y e := by
  have hc := arena.compared x y
  rw [h] at hc
  cases hc with
  | danglingLeft _ left right missing =>
    rw [record_eq_error missing]
    exact .left left right ⟨_, missing⟩
  | danglingRight _ left right found missing =>
    rw [record_eq_error missing]
    refine .right left right ?_ ⟨_, missing⟩
    rintro ⟨e, he⟩
    rw [found] at he
    contradiction

theorem NamesFirst.eq_or_both_missing (h : arena.NamesFirst x y e) (h' : arena.NamesFirst y x e') :
    e = e' ∨ ∃ r s, Value.decode x = .tuple r ∧ Value.decode y = .tuple s ∧
      arena.IsMissing r ∧ arena.IsMissing s := by
  cases h with
  | left left right missing =>
    cases h' with
    | left left' _ missing' => exact .inr ⟨_, _, left, left', missing, missing'⟩
    | right _ right' _ _ =>
      cases left.symm.trans right'
      exact .inl rfl
  | right left right found missing =>
    cases h' with
    | left left' _ _ =>
      cases right.symm.trans left'
      exact .inl rfl
    | right _ right' _ missing' =>
      cases left.symm.trans right'
      contradiction

/-! ## comparing commutes -/

/-- Two comparisons end alike, except for the record that they name. -/
structure SameUpToRecord (p q : Except ArenaError Word → Prop) : Prop where
  answer : ∀ r, p (.ok r) ↔ q (.ok r)
  fails : (∃ e, p (.error e)) ↔ ∃ e, q (.error e)
  never : (∀ outcome, ¬ p outcome) ↔ ∀ outcome, ¬ q outcome

theorem sameUpToRecord_of_follows {p q : Except ArenaError Word → Prop}
    (answer : ∀ r, p (.ok r) → q (.ok r)) (answer' : ∀ r, q (.ok r) → p (.ok r))
    (fails : ∀ e, p (.error e) → ∃ e', q (.error e'))
    (fails' : ∀ e, q (.error e) → ∃ e', p (.error e')) : SameUpToRecord p q := by
  refine ⟨fun r => ⟨answer r, answer' r⟩, ?_, ?_⟩
  · exact ⟨fun ⟨e, he⟩ => fails e he, fun ⟨e, he⟩ => fails' e he⟩
  · constructor
    · intro hnever outcome hq
      cases outcome with
      | ok r => exact hnever _ (answer' r hq)
      | error e =>
        obtain ⟨e', he'⟩ := fails' e hq
        exact hnever _ he'
    · intro hnever outcome hp
      cases outcome with
      | ok r => exact hnever _ (answer r hp)
      | error e =>
        obtain ⟨e', he'⟩ := fails e hp
        exact hnever _ he'

/-- The comparisons of `a` with `b` and of `b` with `a` break off at one pair of the walk.  Each
names the first word of the pair, in its own order, whose record is missing. -/
inductive BreakOffAt (arena : Arena) (a b : Word) (e e' : ArenaError) : Prop where
  | intro (path : List Nat) (x y : Word) (decided : arena.DecidedAt a b path x y)
    (decided' : arena.DecidedAt b a path y x) (rounds : Nat) (rest : List (Word × Word))
    (after : Loop.after arena.compareRound rounds [(a, b)] = some ((x, y) :: rest))
    (after' : Loop.after arena.compareRound rounds [(b, a)] =
      some ((y, x) :: rest.map Prod.swap))
    (names : arena.NamesFirst x y e) (names' : arena.NamesFirst y x e')
    (same : e = e' ∨ ∃ r s, Value.decode x = .tuple r ∧ Value.decode y = .tuple s ∧
      arena.IsMissing r ∧ arena.IsMissing s)

theorem equalEndsWith_ok_iff {r : Word} : arena.EqualEndsWith a b (.ok r) ↔
    ∃ bound v, (arena.equalWithin bound a b).run = some (.ok v) ∧ Word.ofBool v = r := by
  unfold EqualEndsWith
  simp only [Walk.run_map_eq_ok]

theorem equalEndsWith_error_iff : arena.EqualEndsWith a b (.error e) ↔
    ∃ bound, (arena.equalWithin bound a b).run = some (.error e) := by
  refine exists_congr fun bound => ?_
  rw [Walk.run_map]
  rcases (arena.equalWithin bound a b).run with _ | e' | v <;> simp [Except.map]

/-- A comparison that breaks off does so at a pair that is met with the sides exchanged as well. -/
theorem exists_decidedAt_of_error (h : arena.EqualEndsWith a b (.error e)) :
    ∃ path x y, arena.DecidedAt a b path x y ∧ arena.compare x y = .error e := by
  rcases run_equalWithin_iff.mp (equalEndsWith_error_iff.mp h) with
    ⟨hok, -⟩ | ⟨path, x, y, hdecided, hverdict⟩
  · contradiction
  · rcases verdict_eq_some_iff.mp hverdict with ⟨_, hc, he⟩ | ⟨-, he⟩
    · cases he
      exact ⟨path, x, y, hdecided, hc⟩
    · contradiction

theorem equalEndsWith_error_of_decidedAt (h : arena.DecidedAt a b path x y)
    (hc : arena.compare x y = .error e) : arena.EqualEndsWith a b (.error e) :=
  equalEndsWith_error_iff.mpr (h.exists_bound (verdict_of_error hc))

theorem equalEndsWith_error_unique (h : arena.EqualEndsWith a b (.error e))
    (h' : arena.EqualEndsWith a b (.error e')) : e = e' := by
  obtain ⟨n, hn⟩ := equalEndsWith_error_iff.mp h
  obtain ⟨m, hm⟩ := equalEndsWith_error_iff.mp h'
  have heq := Walk.outcome_unique (x := (a, b)) arena.equalWithin_succ hn hm
  injection heq

theorem equalEndsWith_ok_swap {r : Word} (h : arena.EqualEndsWith a b (.ok r)) :
    arena.EqualEndsWith b a (.ok r) := by
  obtain ⟨bound, v, hv, hr⟩ := equalEndsWith_ok_iff.mp h
  exact equalEndsWith_ok_iff.mpr ⟨bound, v, run_equalWithin_swap hv, hr⟩

theorem exists_equalEndsWith_error_swap (h : arena.EqualEndsWith a b (.error e)) :
    ∃ e', arena.EqualEndsWith b a (.error e') := by
  obtain ⟨path, x, y, hdecided, hc⟩ := exists_decidedAt_of_error h
  obtain ⟨e', hc'⟩ := exists_error_swap hc
  exact ⟨e', equalEndsWith_error_of_decidedAt hdecided.swap hc'⟩

theorem breakOffAt_of_errors (h : arena.EqualEndsWith a b (.error e))
    (h' : arena.EqualEndsWith b a (.error e')) : arena.BreakOffAt a b e e' := by
  obtain ⟨path, x, y, hdecided, hc⟩ := exists_decidedAt_of_error h
  obtain ⟨e'', hc'⟩ := exists_error_swap hc
  -- the other comparison names what this pair names in its order
  have hsame := equalEndsWith_error_unique h'
    (equalEndsWith_error_of_decidedAt hdecided.swap hc')
  rw [← hsame] at hc'
  obtain ⟨rounds, rest, hafter⟩ := hdecided.exists_after []
  have hnames := namesFirst_of_compare hc
  have hnames' := namesFirst_of_compare hc'
  exact ⟨path, x, y, hdecided, hdecided.swap, rounds, rest, hafter, after_swap hafter, hnames,
    hnames', hnames.eq_or_both_missing hnames'⟩

/-- Comparing commutes up to the record that is named; `ends a b` tells how it ends. -/
structure Commutes (arena : Arena) (ends : Word → Word → Except ArenaError Word → Prop) : Prop where
  same : ∀ a b, SameUpToRecord (ends a b) (ends b a)
  breakOff : ∀ a b e e', ends a b (.error e) → ends b a (.error e') → arena.BreakOffAt a b e e'

theorem commutes_equalEndsWith (arena : Arena) : arena.Commutes arena.EqualEndsWith := by
  refine ⟨fun a b => ?_, fun a b e e' => breakOffAt_of_errors⟩
  exact sameUpToRecord_of_follows (fun _ => equalEndsWith_ok_swap) (fun _ => equalEndsWith_ok_swap)
    (fun _ => exists_equalEndsWith_error_swap) (fun _ => exists_equalEndsWith_error_swap)

theorem Commutes.congr {p q : Word → Word → Except ArenaError Word → Prop}
    (hp : arena.Commutes p) (h : ∀ a b outcome, p a b outcome ↔ q a b outcome) :
    arena.Commutes q := by
  have hpq : p = q := by
    funext a b outcome
    exact propext (h a b outcome)
  exact hpq ▸ hp

theorem endsWith_compareRound_iff {outcome : Except ArenaError Word} :
    arena.EqualEndsWith a b outcome ↔ Loop.EndsWith arena.compareRound [(a, b)] outcome := by
  rw [← run_equalWord_eq_some_iff, ← run_equalWordByStack_eq_some_iff, equalWordByStack,
    equalByStack_eq_equal, equalWord]

/-- **Comparing commutes, up to which missing record is named.**  The two errors are the same unless
both records of the pair are missing. -/
theorem equal_commutes (arena : Arena) :
    arena.Commutes arena.EqualEndsWith ∧
    arena.Commutes (fun a b outcome => Loop.EndsWith arena.compareRound [(a, b)] outcome) ∧
    arena.Commutes (fun a b outcome => (arena.equalWord a b).run = some outcome) ∧
    arena.Commutes (fun a b outcome => (arena.equalWordByStack a b).run = some outcome) := by
  have hcommutes := arena.commutes_equalEndsWith
  refine ⟨hcommutes, hcommutes.congr ?_, hcommutes.congr ?_, hcommutes.congr ?_⟩
  · exact fun _ _ _ => endsWith_compareRound_iff
  · exact fun _ _ _ => run_equalWord_eq_some_iff.symm
  · intro a b outcome
    rw [run_equalWordByStack_eq_some_iff]
    exact endsWith_compareRound_iff

/-- Two missing records in one place: each comparison names that of its left word. -/
theorem equal_commutes_both_missing :
    (⟨#[1, 801, 1, 809]⟩ : Arena).BreakOffAt 1 9 (.outOfBounds 800 4) (.outOfBounds 808 4) :=
  (equal_commutes ⟨#[1, 801, 1, 809]⟩).2.2.1.breakOff 1 9 _ _ (by decide) (by decide)

end Arena

end TaggedWords
