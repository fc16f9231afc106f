import Mathlib.Data.List.Lex
import TaggedWords.Proofs.Walk.Sides

/-!
# The first decisive pair

Two words unfold together: below a pair of words that differ and refer to records of the arena stand
the pairs of their elements.  A pair is known by its path, the indices that lead to it.  In pre-order
each pair comes before those below it, and these come from left to right; so one path comes before
another exactly if it does in the lexicographic order.

A pair of different words is decisive if it leaves nothing to its elements.  Where comparing ends, the
first decisive pair is what it ends with, whatever else the unfolding holds behind that pair.

* `Path.Before`              the order of the paths;
* `Arena.PairAt`             the pair at a path;
* `Arena.Decisive`           the pairs that leave nothing to their elements;
* `Arena.FirstDecisive`      the first of them;
* `Arena.FirstDecides`       what a comparison is to end with, by the first decisive pair;
* `DecidedAt.firstDecisive`  comparing comes to the first decisive pair;
* `equal_follows_first_decisive`   a comparison that ends does so as this pair says.
-/

namespace TaggedWords

/-! ## paths -/

abbrev Path.Before : List Nat → List Nat → Prop := List.Lex (· < ·)

theorem Path.eq_of_not_before {p q : List Nat} (hpq : ¬ Before p q) (hqp : ¬ Before q p) : p = q :=
  Std.Trichotomous.trichotomous p q hpq hqp

namespace Arena

variable {arena : Arena} {a b x y u v : Word} {path path' : List Nat} {e e' : ArenaError}

/-! ## pairs of the unfolding -/

/-- The pair of `x` and `y` is at a path of the common unfolding of `a` and `b`.  Below words that are
the same there is nothing. -/
inductive PairAt (arena : Arena) : Word → Word → List Nat → Word → Word → Prop where
  | here (a b : Word) : PairAt arena a b [] a b
  | element {a b u v x y : Word} {r s : Reference} {xs ys : List Word} {i : Nat} {path : List Nat}
    (ne : a ≠ b) (left : Value.decode a = .tuple r) (right : Value.decode b = .tuple s)
    (foundLeft : arena.record r = .ok xs) (foundRight : arena.record s = .ok ys)
    (elementLeft : xs[i]? = some u) (elementRight : ys[i]? = some v)
    (inside : PairAt arena u v path x y) : PairAt arena a b (i :: path) x y

theorem PairAt.unique (h : arena.PairAt a b path x y) (h' : arena.PairAt a b path u v) :
    x = u ∧ y = v := by
  induction h with
  | here a b =>
    cases h'
    exact ⟨rfl, rfl⟩
  | element ne left right foundLeft foundRight elementLeft elementRight _ ih =>
    cases h' with
    | element _ left' right' foundLeft' foundRight' elementLeft' elementRight' inside' =>
      cases left.symm.trans left'
      cases right.symm.trans right'
      cases foundLeft.symm.trans foundLeft'
      cases foundRight.symm.trans foundRight'
      cases elementLeft.symm.trans elementLeft'
      cases elementRight.symm.trans elementRight'
      exact ih inside'

/-! ## decisive pairs -/

def NoTuple (w : Word) : Prop := ∀ r, Value.decode w ≠ .tuple r

/-- The word is a tuple whose record is not wholly inside the arena. -/
def Dangles (arena : Arena) (w : Word) : Prop :=
  ∃ r, Value.decode w = .tuple r ∧ arena.IsMissing r

def LengthsDiffer (arena : Arena) (x y : Word) : Prop :=
  ∃ r s xs ys, Value.decode x = .tuple r ∧ Value.decode y = .tuple s ∧
    arena.record r = .ok xs ∧ arena.record s = .ok ys ∧ xs.length ≠ ys.length

/-- The words differ, and nothing is left to their elements. -/
structure Decisive (arena : Arena) (x y : Word) : Prop where
  ne : x ≠ y
  cause : NoTuple x ∨ NoTuple y ∨ arena.Dangles x ∨ arena.Dangles y ∨ arena.LengthsDiffer x y

theorem noTuple_of_atom {w : Word} {c : Atom} (h : Value.decode w = .atom c) : NoTuple w := by
  intro r hr
  rw [h] at hr
  contradiction

theorem decisive_of_verdict {o : Except ArenaError Bool} (h : arena.verdict x y = some o) :
    arena.Decisive x y := by
  have hc := arena.compared x y
  rcases verdict_eq_some_iff.mp h with ⟨e, hcompare, -⟩ | ⟨hcompare, -⟩
  · rw [hcompare] at hc
    cases hc with
    | danglingLeft ne left _ missing =>
      exact ⟨ne, .inr (.inr (.inl ⟨_, left, _, missing⟩))⟩
    | danglingRight ne _ right _ missing =>
      exact ⟨ne, .inr (.inr (.inr (.inl ⟨_, right, _, missing⟩)))⟩
  · rw [hcompare] at hc
    cases hc with
    | atomLeft ne left => exact ⟨ne, .inl (noTuple_of_atom left)⟩
    | atomRight ne _ right => exact ⟨ne, .inr (.inl (noTuple_of_atom right))⟩
    | lengths ne left right foundLeft foundRight length =>
      exact ⟨ne, .inr (.inr (.inr (.inr ⟨_, _, _, _, left, right, foundLeft, foundRight, length⟩)))⟩

theorem not_isMissing_of_found {r : Reference} {xs : List Word} (h : arena.record r = .ok xs) :
    ¬ arena.IsMissing r := by
  rintro ⟨e, he⟩
  rw [h] at he
  contradiction

theorem exists_found_of_elementwise {pairs : List (Word × Word)}
    (h : arena.compare a b = .ok (.elementwise pairs)) :
    ∃ r s xs ys, a ≠ b ∧ Value.decode a = .tuple r ∧ Value.decode b = .tuple s ∧
      arena.record r = .ok xs ∧ arena.record s = .ok ys ∧ xs.length = ys.length ∧
      pairs = xs.zip ys := by
  have hc := arena.compared a b
  rw [h] at hc
  cases hc with
  | elements ne left right foundLeft foundRight length =>
    exact ⟨_, _, _, _, ne, left, right, foundLeft, foundRight, length, rfl⟩

theorem not_decisive_of_elementwise {pairs : List (Word × Word)}
    (h : arena.compare x y = .ok (.elementwise pairs)) : ¬ arena.Decisive x y := by
  obtain ⟨r, s, xs, ys, -, left, right, foundLeft, foundRight, length, -⟩ :=
    exists_found_of_elementwise h
  rintro ⟨-, hx | hy | ⟨r', hr', hmissing⟩ | ⟨s', hs', hmissing⟩ |
    ⟨r', s', xs', ys', hr', hs', hxs, hys, hlength⟩⟩
  · exact hx r left
  · exact hy s right
  · cases left.symm.trans hr'
    exact not_isMissing_of_found foundLeft hmissing
  · cases right.symm.trans hs'
    exact not_isMissing_of_found foundRight hmissing
  · cases left.symm.trans hr'
    cases right.symm.trans hs'
    cases foundLeft.symm.trans hxs
    cases foundRight.symm.trans hys
    exact hlength length

/-! ## what a comparison passes -/

/-- The pair at a path that goes through two tuples of one length is at the rest of the path below
the pair of their elements. -/
theorem PairAt.exists_element {pairs : List (Word × Word)} {i : Nat}
    (h : arena.PairAt a b (i :: path) x y) (found : arena.compare a b = .ok (.elementwise pairs)) :
    ∃ p, pairs[i]? = some p ∧ arena.PairAt p.1 p.2 path x y := by
  obtain ⟨r, s, xs, ys, -, left, right, foundLeft, foundRight, -, rfl⟩ :=
    exists_found_of_elementwise found
  cases h with
  | @element _ _ u v _ _ _ _ _ _ _ _ _ left' right' foundLeft' foundRight' elementLeft elementRight
      inside =>
    cases left.symm.trans left'
    cases right.symm.trans right'
    cases foundLeft.symm.trans foundLeft'
    cases foundRight.symm.trans foundRight'
    exact ⟨(u, v), List.getElem?_zip_eq_some.mpr ⟨elementLeft, elementRight⟩, inside⟩

theorem PairAt.of_element {pairs : List (Word × Word)} {p : Word × Word} {i : Nat}
    (found : arena.compare a b = .ok (.elementwise pairs)) (hp : pairs[i]? = some p)
    (h : arena.PairAt p.1 p.2 path x y) : arena.PairAt a b (i :: path) x y := by
  obtain ⟨r, s, xs, ys, ne, left, right, foundLeft, foundRight, -, rfl⟩ :=
    exists_found_of_elementwise found
  obtain ⟨elementLeft, elementRight⟩ := List.getElem?_zip_eq_some.mp hp
  exact .element ne left right foundLeft foundRight elementLeft elementRight h

theorem Alike.not_decisive (h : arena.Alike a b) (hat : arena.PairAt a b path x y) :
    ¬ arena.Decisive x y := by
  induction h generalizing path with
  | same a =>
    cases hat with
    | here => exact fun hdecisive => hdecisive.ne rfl
    | element ne => exact absurd rfl ne
  | elements found _ ih =>
    cases path with
    | nil =>
      cases hat
      exact not_decisive_of_elementwise found
    | cons i path =>
      obtain ⟨p, hp, hinside⟩ := hat.exists_element found
      exact ih p (List.mem_of_getElem? hp) hinside

/-! ## the first decisive pair -/

/-- The pair at the path is decisive, and no pair at a path before is. -/
structure FirstDecisive (arena : Arena) (a b : Word) (path : List Nat) (x y : Word) : Prop where
  pairAt : arena.PairAt a b path x y
  decisive : arena.Decisive x y
  first : ∀ path' u v, arena.PairAt a b path' u v → arena.Decisive u v → ¬ Path.Before path' path

theorem FirstDecisive.unique (h : arena.FirstDecisive a b path x y)
    (h' : arena.FirstDecisive a b path' u v) : path = path' ∧ x = u ∧ y = v := by
  obtain rfl := Path.eq_of_not_before (h'.first path x y h.pairAt h.decisive)
    (h.first path' u v h'.pairAt h'.decisive)
  exact ⟨rfl, h.pairAt.unique h'.pairAt⟩

theorem getElem?_length_of_split {α : Type} (before : List α) (p : α) (later : List α) :
    (before ++ p :: later)[before.length]? = some p := by
  rw [List.getElem?_append_right (Nat.le_refl _), Nat.sub_self]
  rfl

theorem DecidedAt.pairAt (h : arena.DecidedAt a b path x y) : arena.PairAt a b path x y := by
  induction h with
  | here => exact .here _ _
  | @element a b x y before later p path found _ _ ih =>
    exact .of_element found (getElem?_length_of_split before p later) ih

theorem DecidedAt.exists_verdict (h : arena.DecidedAt a b path x y) :
    ∃ o, arena.verdict x y = some o := by
  induction h with
  | here decisive => exact ⟨_, decisive⟩
  | element _ _ _ ih => exact ih

theorem DecidedAt.not_decisive_before (h : arena.DecidedAt a b path x y)
    (hat : arena.PairAt a b path' u v) (hbefore : Path.Before path' path) :
    ¬ arena.Decisive u v := by
  induction h generalizing path' with
  | here => cases hbefore
  | @element a b x y before later p path found passed _ ih =>
    cases hbefore with
    | nil =>
      cases hat
      exact not_decisive_of_elementwise found
    | @rel i path' _ _ hlt =>
      -- a pair further to the left: its elements are alike
      obtain ⟨q, hq, hinside⟩ := hat.exists_element found
      rw [List.getElem?_append_left hlt] at hq
      exact (passed q (List.mem_of_getElem? hq)).not_decisive hinside
    | cons hrest =>
      obtain ⟨q, hq, hinside⟩ := hat.exists_element found
      cases hq.symm.trans (getElem?_length_of_split before p later)
      exact ih hinside hrest

/-- **Comparing is decided by the first decisive pair in pre-order.** -/
theorem DecidedAt.firstDecisive (h : arena.DecidedAt a b path x y) :
    arena.FirstDecisive a b path x y := by
  obtain ⟨o, ho⟩ := h.exists_verdict
  exact ⟨h.pairAt, decisive_of_verdict ho,
    fun path' u v hat hdecisive hbefore => h.not_decisive_before hat hbefore hdecisive⟩

/-! ## what a comparison ends with -/

/-- What a comparison is to end with, by its first decisive pair: the words are equal if there is
none. -/
inductive FirstDecides (arena : Arena) (a b : Word) : Except ArenaError Word → Prop where
  | alike (none : ∀ path x y, arena.PairAt a b path x y → ¬ arena.Decisive x y) :
    FirstDecides arena a b (.ok trueWord)
  | different {path : List Nat} {x y : Word} (first : arena.FirstDecisive a b path x y)
    (mismatch : NoTuple x ∨ NoTuple y ∨ arena.LengthsDiffer x y) :
    FirstDecides arena a b (.ok falseWord)
  | missing {path : List Nat} {x y : Word} {e : ArenaError}
    (first : arena.FirstDecisive a b path x y) (names : arena.NamesFirst x y e) :
    FirstDecides arena a b (.error e)

theorem firstDecides_of_verdict {o : Except ArenaError Bool}
    (first : arena.FirstDecisive a b path x y) (h : arena.verdict x y = some o) :
    arena.FirstDecides a b (o.map Word.ofBool) := by
  rcases verdict_eq_some_iff.mp h with ⟨e, hcompare, rfl⟩ | ⟨hcompare, rfl⟩
  · exact .missing first (namesFirst_of_compare hcompare)
  · have hc := arena.compared x y
    rw [hcompare] at hc
    cases hc with
    | atomLeft _ left => exact .different first (.inl (noTuple_of_atom left))
    | atomRight _ _ right => exact .different first (.inr (.inl (noTuple_of_atom right)))
    | lengths _ left right foundLeft foundRight length =>
      exact .different first
        (.inr (.inr ⟨_, _, _, _, left, right, foundLeft, foundRight, length⟩))

theorem firstDecides_of_equalEndsWith {outcome : Except ArenaError Word}
    (h : arena.EqualEndsWith a b outcome) : arena.FirstDecides a b outcome := by
  obtain ⟨depth, hdepth⟩ := h
  rw [Walk.run_map] at hdepth
  obtain ⟨o, ho, rfl⟩ := Option.map_eq_some_iff.mp hdepth
  rcases run_equalWithin_iff.mp ⟨depth, ho⟩ with ⟨rfl, halike⟩ | ⟨path, x, y, hdecided, hverdict⟩
  · exact .alike fun path x y hat => halike.not_decisive hat
  · exact firstDecides_of_verdict hdecided.firstDecisive hverdict

theorem NamesFirst.not_mismatch (h : arena.NamesFirst x y e) :
    ¬ (NoTuple x ∨ NoTuple y ∨ arena.LengthsDiffer x y) := by
  have htuples : ∃ r s, Value.decode x = .tuple r ∧ Value.decode y = .tuple s ∧
      (arena.IsMissing r ∨ arena.IsMissing s) := by
    cases h with
    | left left right missing => exact ⟨_, _, left, right, .inl missing⟩
    | right left right _ missing => exact ⟨_, _, left, right, .inr missing⟩
  obtain ⟨r, s, left, right, hmissing⟩ := htuples
  rintro (hx | hy | ⟨r', s', xs, ys, hr', hs', hxs, hys, -⟩)
  · exact hx r left
  · exact hy s right
  · cases left.symm.trans hr'
    cases right.symm.trans hs'
    exact hmissing.elim (not_isMissing_of_found hxs) (not_isMissing_of_found hys)

theorem NamesFirst.unique (h : arena.NamesFirst x y e) (h' : arena.NamesFirst x y e') : e = e' := by
  cases h with
  | left left _ missing =>
    cases h' with
    | left left' _ _ =>
      cases left.symm.trans left'
      rfl
    | right left' _ found' _ =>
      cases left.symm.trans left'
      contradiction
  | right left right found _ =>
    cases h' with
    | left left' _ missing' =>
      cases left.symm.trans left'
      contradiction
    | right _ right' _ _ =>
      cases right.symm.trans right'
      rfl

theorem FirstDecides.unique {outcome outcome' : Except ArenaError Word}
    (h : arena.FirstDecides a b outcome) (h' : arena.FirstDecides a b outcome') :
    outcome = outcome' := by
  cases h with
  | alike none =>
    cases h' with
    | alike => rfl
    | different first _ => exact absurd first.decisive (none _ _ _ first.pairAt)
    | missing first _ => exact absurd first.decisive (none _ _ _ first.pairAt)
  | different first mismatch =>
    cases h' with
    | alike none => exact absurd first.decisive (none _ _ _ first.pairAt)
    | different => rfl
    | missing first' names =>
      obtain ⟨-, rfl, rfl⟩ := first.unique first'
      exact absurd mismatch names.not_mismatch
  | missing first names =>
    cases h' with
    | alike none => exact absurd first.decisive (none _ _ _ first.pairAt)
    | different first' mismatch =>
      obtain ⟨-, rfl, rfl⟩ := first.unique first'
      exact absurd mismatch names.not_mismatch
    | missing first' names' =>
      obtain ⟨-, rfl, rfl⟩ := first.unique first'
      rw [names.unique names']

/-- **A comparison that ends does so as the first decisive pair says.**  The pairs behind it do not
matter. -/
theorem equal_follows_first_decisive (h : ∃ outcome, arena.EqualEndsWith a b outcome) :
    (∀ outcome, arena.EqualEndsWith a b outcome ↔ arena.FirstDecides a b outcome) ∧
    (∀ outcome, Loop.EndsWith arena.compareRound [(a, b)] outcome ↔
      arena.FirstDecides a b outcome) ∧
    (∀ outcome, (arena.equalWord a b).run = some outcome ↔ arena.FirstDecides a b outcome) ∧
    (∀ outcome, (arena.equalWordByStack a b).run = some outcome ↔
      arena.FirstDecides a b outcome) := by
  have hiff : ∀ outcome, arena.EqualEndsWith a b outcome ↔ arena.FirstDecides a b outcome := by
    intro outcome
    refine ⟨firstDecides_of_equalEndsWith, fun hdecides => ?_⟩
    obtain ⟨actual, hactual⟩ := h
    rw [hdecides.unique (firstDecides_of_equalEndsWith hactual)]
    exact hactual
  refine ⟨hiff, fun outcome => ?_, fun outcome => ?_, fun outcome => ?_⟩
  · rw [← endsWith_compareRound_iff, hiff]
  · rw [run_equalWord_eq_some_iff, hiff]
  · rw [run_equalWordByStack_eq_some_iff, ← endsWith_compareRound_iff, hiff]

/-- The second pair breaks the comparison off; the third ones, which differ, come too late. -/
theorem equal_follows_first_decisive_in_order :
    (⟨#[3, 2, 41, 4, 3, 2, 801, 6, 1, 14, 1, 14]⟩ : Arena).FirstDecides 1 17
      (.error (.outOfBounds 800 12)) := by
  have hends : ((⟨#[3, 2, 41, 4, 3, 2, 801, 6, 1, 14, 1, 14]⟩ : Arena).equalWord 1 17).run =
      some (.error (.outOfBounds 800 12)) := by decide
  exact ((equal_follows_first_decisive ⟨_, run_equalWord_eq_some_iff.mp hends⟩).2.2.1 _).mp hends

end Arena

end TaggedWords
