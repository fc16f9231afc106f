import TaggedWords.Proofs.Walk.Failing
import TaggedWords.Proofs.Walk.Loop
import TaggedWords.Proofs.Walk.Nesting
import TaggedWords.Walk.EqualStack

/-!
# Comparing by recursion and with a work stack

The work stack holds the pairs that the nested calls of the recursion still have to compare, those
of the innermost call uppermost.  So the loop has to give what the recursion says of all pending
pairs in order, up to the first difference or the first record outside the arena: this is the
invariant of every round, for any stack and over any arena.

* `Arena.equalAll`          what the recursion says of pending pairs;
* `Arena.compareRound`      one round of the loop, with no bound on anything;
* `comparePending_outcome`  the stack under bounds gives what the recursion says;
* `endsWith_of_comparePending`, `exists_bound_of_endsWith`   so does the loop without bounds;
* `Arena.ComparesTo`        comparing ends with an outcome in every way;
* `equalWord_agrees_with_stack`   the two comparisons are one function.
-/

namespace TaggedWords

namespace Arena

variable {arena : Arena} {a b : Word} {bound : Nat} {rest : List PendingPair}

/-! ## what the recursion says of pending pairs -/

/-- What the recursion says of pending pairs, in order up to the first difference. -/
def equalAll (arena : Arena) (pending : List PendingPair) : Walk Bool :=
  pending.allM fun p => arena.equalWithin p.bound p.left p.right

theorem equalAll_cons (arena : Arena) (p : PendingPair) (rest : List PendingPair) :
    arena.equalAll (p :: rest) =
      arena.equalWithin p.bound p.left p.right >>= fun b =>
        if b then arena.equalAll rest else pure false := by
  rw [equalAll, List.allM_cons]
  rfl

theorem equalAll_singleton (arena : Arena) (p : PendingPair) :
    arena.equalAll [p] = arena.equalWithin p.bound p.left p.right := by
  rw [equalAll_cons]
  refine (bind_congr fun b => ?_).trans (bind_pure _)
  cases b <;> rfl

theorem equalAll_append (arena : Arena) (ps qs : List PendingPair) :
    arena.equalAll (ps ++ qs) =
      arena.equalAll ps >>= fun b => if b then arena.equalAll qs else pure false :=
  Walk.allM_append _ ps qs

theorem equalAll_ofElements (arena : Arena) (bound : Nat) (pairs : List (Word × Word)) :
    arena.equalAll (PendingPair.ofElements bound pairs) =
      pairs.allM fun p => arena.equalWithin bound p.1 p.2 := by
  induction pairs with
  | nil => rfl
  | cons p pairs ih =>
    rw [List.allM_cons, ← ih]
    exact arena.equalAll_cons ⟨bound, p.1, p.2⟩ (PendingPair.ofElements bound pairs)

theorem equalAll_zero (arena : Arena) (a b : Word) (rest : List PendingPair) :
    (arena.equalAll (⟨0, a, b⟩ :: rest)).run = none := by
  rw [equalAll_cons]
  rfl

theorem equalAll_of_error {e : ArenaError} (h : arena.compare a b = .error e) :
    (arena.equalAll (⟨bound + 1, a, b⟩ :: rest)).run = some (.error e) := by
  rw [equalAll_cons]
  exact Walk.run_bind_of_error (run_equalWithin_of_error h) _

theorem equalAll_of_same (h : arena.compare a b = .ok .same) :
    (arena.equalAll (⟨bound + 1, a, b⟩ :: rest)).run = (arena.equalAll rest).run := by
  rw [equalAll_cons]
  exact Walk.run_bind_of_ok (run_equalWithin_of_same h) _

theorem equalAll_of_different (h : arena.compare a b = .ok .different) :
    (arena.equalAll (⟨bound + 1, a, b⟩ :: rest)).run = some (.ok false) := by
  rw [equalAll_cons]
  exact Walk.run_bind_of_ok (run_equalWithin_of_different h) _

theorem equalAll_of_elementwise {pairs : List (Word × Word)}
    (h : arena.compare a b = .ok (.elementwise pairs)) :
    arena.equalAll (⟨bound + 1, a, b⟩ :: rest) =
      arena.equalAll (PendingPair.ofElements bound pairs ++ rest) := by
  rw [equalAll_cons, equalAll_append, equalAll_ofElements, equalWithin_of_elementwise h]

/-! ## the stack under bounds -/

theorem comparePending_outcome (arena : Arena) (visits : Array Visit)
    (pending : Stack PendingPair) :
    (arena.comparePending visits pending).map Traced.outcome =
      (arena.equalAll pending.items).run := by
  fun_induction comparePending arena visits pending with
  | case1 visits pending hpop =>
    rw [Stack.items_of_pop?_eq_none hpop]
    rfl
  | case2 visits pending a b rest hpop =>
    rw [Stack.items_of_pop?_eq_some hpop, equalAll_zero]
    rfl
  | case3 visits pending bound a b rest hpop e hc =>
    rw [Stack.items_of_pop?_eq_some hpop, equalAll_of_error hc]
    rfl
  | case4 visits pending bound a b rest hpop hc ih =>
    rw [Stack.items_of_pop?_eq_some hpop, equalAll_of_same hc, ih]
  | case5 visits pending bound a b rest hpop hc =>
    rw [Stack.items_of_pop?_eq_some hpop, equalAll_of_different hc]
    rfl
  | case6 visits pending bound a b rest hpop pairs hc ih =>
    rw [Stack.items_of_pop?_eq_some hpop, equalAll_of_elementwise hc, ih, Stack.items_push]

theorem equalByStack_eq_equal (arena : Arena) (a b : Word) :
    arena.equalByStack a b = arena.equal a b := by
  have h := arena.comparePending_outcome #[] (.singleton ⟨arena.equalBound, a, b⟩)
  rw [Stack.items_singleton, equalAll_singleton] at h
  exact ExceptT.ext h

/-! ## the loop without bounds -/

/-- One round of the loop over pending pairs.  Nothing is bounded. -/
def compareRound (arena : Arena) :
    List (Word × Word) → Round (List (Word × Word)) (Except ArenaError Word)
  | [] => .done (.ok trueWord)
  | (a, b) :: rest =>
    match arena.compare a b with
    | .error e => .done (.error e)
    | .ok .same => .next rest
    | .ok .different => .done (.ok falseWord)
    | .ok (.elementwise pairs) => .next (pairs ++ rest)

theorem endsWith_of_comparePending {visits : Array Visit} {pending : Stack PendingPair}
    {t : Traced Bool} (h : arena.comparePending visits pending = some t) :
    Loop.EndsWith arena.compareRound (pending.items.map PendingPair.words)
      (t.outcome.map Word.ofBool) := by
  fun_induction comparePending arena visits pending with
  | case1 visits pending hpop =>
    cases h
    rw [Stack.items_of_pop?_eq_none hpop]
    exact Loop.endsWith_of_done rfl
  | case2 visits pending a b rest hpop => contradiction
  | case3 visits pending bound a b rest hpop e hc =>
    cases h
    rw [Stack.items_of_pop?_eq_some hpop, List.map_cons]
    refine Loop.endsWith_of_done ?_
    rw [PendingPair.words, compareRound, hc]
    rfl
  | case4 visits pending bound a b rest hpop hc ih =>
    rw [Stack.items_of_pop?_eq_some hpop, List.map_cons]
    refine Loop.endsWith_of_next ?_ (ih h)
    rw [PendingPair.words, compareRound, hc]
  | case5 visits pending bound a b rest hpop hc =>
    cases h
    rw [Stack.items_of_pop?_eq_some hpop, List.map_cons]
    refine Loop.endsWith_of_done ?_
    rw [PendingPair.words, compareRound, hc]
    rfl
  | case6 visits pending bound a b rest hpop pairs hc ih =>
    have ih' := ih h
    rw [Stack.items_push, List.map_append, PendingPair.map_words_ofElements] at ih'
    rw [Stack.items_of_pop?_eq_some hpop, List.map_cons]
    refine Loop.endsWith_of_next ?_ ih'
    rw [PendingPair.words, compareRound, hc]

theorem equalAll_ofElements_succ (arena : Arena) (bound : Nat) (pairs : List (Word × Word)) :
    (arena.equalAll (PendingPair.ofElements bound pairs)).Within
      (arena.equalAll (PendingPair.ofElements (bound + 1) pairs)) := by
  rw [equalAll_ofElements, equalAll_ofElements]
  exact Walk.Within.allM fun p _ => arena.equalWithin_succ bound p

theorem run_equalAll_of_done {pairs : List (Word × Word)} {outcome : Except ArenaError Word}
    (h : arena.compareRound pairs = .done outcome) :
    (Word.ofBool <$> arena.equalAll (PendingPair.ofElements 1 pairs)).run = some outcome := by
  rw [Walk.run_map]
  match pairs with
  | [] =>
    cases h
    rfl
  | (a, b) :: rest =>
    rw [compareRound] at h
    rw [PendingPair.ofElements_cons]
    split at h
    · next e hc =>
      cases h
      rw [equalAll_of_error hc]
      rfl
    · contradiction
    · next hc =>
      cases h
      rw [equalAll_of_different hc]
      rfl
    · contradiction

theorem equalAll_within_of_next {pairs pairs' : List (Word × Word)}
    (h : arena.compareRound pairs = .next pairs') (bound : Nat) :
    (arena.equalAll (PendingPair.ofElements bound pairs')).Within
      (arena.equalAll (PendingPair.ofElements (bound + 1) pairs)) := by
  match pairs with
  | [] => contradiction
  | (a, b) :: rest =>
    have hrest := arena.equalAll_ofElements_succ bound rest
    rw [compareRound] at h
    rw [PendingPair.ofElements_cons]
    split at h
    · contradiction
    · next hc =>
      cases h
      intro outcome hends
      rw [equalAll_of_same hc]
      exact hrest outcome hends
    · contradiction
    · next elements hc =>
      cases h
      rw [equalAll_of_elementwise hc, equalAll_append, PendingPair.ofElements_append,
        equalAll_append]
      refine (Walk.Within.refl _).bind fun b _ => ?_
      cases b with
      | false => exact .refl _
      | true => exact hrest

/-- Where the loop ends, the recursion ends in the same way under some bound. -/
theorem exists_bound_of_endsWith {pairs : List (Word × Word)} {outcome : Except ArenaError Word}
    (h : Loop.EndsWith arena.compareRound pairs outcome) :
    ∃ bound, (Word.ofBool <$> arena.equalAll (PendingPair.ofElements bound pairs)).run =
      some outcome := by
  induction h using Loop.EndsWith.induction with
  | done pairs hround => exact ⟨1, run_equalAll_of_done hround⟩
  | next pairs pairs' hround _ ih =>
    obtain ⟨bound, hbound⟩ := ih
    exact ⟨bound + 1, (equalAll_within_of_next hround bound).map Word.ofBool outcome hbound⟩

/-! ## the two comparisons -/

/-- The recursion ends with an outcome.  Nothing bounds its nesting. -/
def EqualEndsWith (arena : Arena) (a b : Word) (outcome : Except ArenaError Word) : Prop :=
  ∃ depth, (Word.ofBool <$> arena.equalWithin depth a b).run = some outcome

theorem run_equalWord_eq_some_iff {outcome : Except ArenaError Word} :
    (arena.equalWord a b).run = some outcome ↔ arena.EqualEndsWith a b outcome := by
  refine ⟨fun h => ⟨_, h⟩, fun ⟨depth, h⟩ => ?_⟩
  rw [Walk.run_map] at h
  obtain ⟨o, ho, hmap⟩ := Option.map_eq_some_iff.mp h
  rw [equalWord, Walk.run_map, equal_run_eq_some_iff.mpr ⟨depth, ho⟩, Option.map_some, hmap]

theorem equalEndsWith_unique {outcome outcome' : Except ArenaError Word}
    (h : arena.EqualEndsWith a b outcome) (h' : arena.EqualEndsWith a b outcome') :
    outcome = outcome' :=
  Option.some.inj ((run_equalWord_eq_some_iff.mpr h).symm.trans (run_equalWord_eq_some_iff.mpr h'))

theorem run_equalWordByStack_eq_some_iff {outcome : Except ArenaError Word} :
    (arena.equalWordByStack a b).run = some outcome ↔
      Loop.EndsWith arena.compareRound [(a, b)] outcome := by
  constructor
  · intro h
    rw [equalWordByStack, Walk.run_map] at h
    obtain ⟨o, ho, hmap⟩ := Option.map_eq_some_iff.mp h
    obtain ⟨t, ht, htraced⟩ := Option.map_eq_some_iff.mp ho
    rw [← hmap, ← htraced]
    exact endsWith_of_comparePending ht
  · intro h
    obtain ⟨depth, hdepth⟩ := exists_bound_of_endsWith h
    rw [equalWordByStack, equalByStack_eq_equal]
    refine run_equalWord_eq_some_iff.mpr ⟨depth, ?_⟩
    rw [← hdepth, PendingPair.ofElements_cons, PendingPair.ofElements_nil, equalAll_singleton]

/-- Comparing ends so in every way: by recursion and with a work stack, under the bounds as well. -/
structure ComparesTo (arena : Arena) (a b : Word) (outcome : Except ArenaError Word) : Prop where
  recursion : arena.EqualEndsWith a b outcome
  loop : Loop.EndsWith arena.compareRound [(a, b)] outcome
  equalWord : (arena.equalWord a b).run = some outcome
  equalWordByStack : (arena.equalWordByStack a b).run = some outcome

theorem comparesTo_of_equalEndsWith {outcome : Except ArenaError Word}
    (h : arena.EqualEndsWith a b outcome) : arena.ComparesTo a b outcome := by
  have hword : (arena.equalWord a b).run = some outcome := run_equalWord_eq_some_iff.mpr h
  have hstack : (arena.equalWordByStack a b).run = some outcome := by
    rw [equalWordByStack, equalByStack_eq_equal]
    exact hword
  exact ⟨h, run_equalWordByStack_eq_some_iff.mp hstack, hword, hstack⟩

/-- **Comparing by recursion and comparing with a work stack are one function**, and the bounds
under which they run take nothing away from either. -/
theorem equalWord_agrees_with_stack (arena : Arena) (a b : Word) :
    (∀ r, arena.EqualEndsWith a b (.ok r) ↔
      Loop.EndsWith arena.compareRound [(a, b)] (.ok r)) ∧
    (∀ offset words, arena.EqualEndsWith a b (.error (.outOfBounds offset words)) ↔
      Loop.EndsWith arena.compareRound [(a, b)] (.error (.outOfBounds offset words))) ∧
    (∀ e, arena.EqualEndsWith a b (.error e) → ∃ offset, e = .outOfBounds offset arena.size) ∧
    ((∀ outcome, ¬ arena.EqualEndsWith a b outcome) ↔
      Loop.NeverEnds arena.compareRound [(a, b)]) ∧
    arena.equalWordByStack a b = arena.equalWord a b ∧
    (∀ outcome, (arena.equalWord a b).run = some outcome ↔
      arena.EqualEndsWith a b outcome) ∧
    (∀ outcome, (arena.equalWordByStack a b).run = some outcome ↔
      Loop.EndsWith arena.compareRound [(a, b)] outcome) := by
  have hsame : arena.equalWordByStack a b = arena.equalWord a b := by
    rw [equalWordByStack, equalByStack_eq_equal, equalWord]
  have hiff : ∀ outcome, arena.EqualEndsWith a b outcome ↔
      Loop.EndsWith arena.compareRound [(a, b)] outcome := by
    intro outcome
    rw [← run_equalWord_eq_some_iff, ← run_equalWordByStack_eq_some_iff, hsame]
  refine ⟨fun r => hiff _, fun offset words => hiff _, ?_, ?_, hsame,
    fun outcome => run_equalWord_eq_some_iff, fun outcome => run_equalWordByStack_eq_some_iff⟩
  · intro e ⟨depth, h⟩
    rw [Walk.run_map] at h
    obtain ⟨o, ho, hmap⟩ := Option.map_eq_some_iff.mp h
    cases o with
    | ok r => contradiction
    | error e' =>
      cases hmap
      exact arena.equalWithin_failsOnly depth a b e ho
  · rw [Loop.neverEnds_iff]
    exact forall_congr' fun outcome => not_congr (hiff outcome)

theorem equalWord_agrees_with_stack_dangling :
    Loop.EndsWith (compareRound ⟨#[1, 801, 1, 809]⟩) [(1, 9)] (.error (.outOfBounds 800 4)) ∧
      Loop.NeverEnds (compareRound ⟨#[1, 1, 1, 9]⟩) [(1, 9)] := by
  constructor
  · obtain ⟨-, herror, -⟩ := equalWord_agrees_with_stack ⟨#[1, 801, 1, 809]⟩ 1 9
    exact (herror 800 4).mp ⟨2, rfl⟩
  · obtain ⟨-, -, -, hnever, -, hends, -⟩ := equalWord_agrees_with_stack ⟨#[1, 1, 1, 9]⟩ 1 9
    have hnone : ((⟨#[1, 1, 1, 9]⟩ : Arena).equalWord 1 9).run = none := by decide
    refine hnever.mp fun outcome h => ?_
    rw [(hends outcome).mpr h] at hnone
    contradiction

end Arena

end TaggedWords
