import Mathlib.Data.Finset.Card
import Mathlib.Data.Finset.Prod
import Mathlib.Data.Finset.Range
import TaggedWords.Proofs.Walk.Order
import TaggedWords.Walk.Equal
import TaggedWords.Walk.Render

/-!
# How deep a walk nests

`Arena.render` and `Arena.equal` bound the nesting of their recursion by the size of the arena.
Here the bounds are shown to change nothing: a walk that ends under any bound ends under these, in
the same way.

The least bound under which a walk ends is its rank.  A walk of rank `n + 2` descends into a record
and there into a walk of rank `n + 1`.  So below a walk of rank `n + 1` there are `n` words (or
pairs of words) of different ranks, hence different words, that refer to records of the arena; and
records start at `arena.places` places only.

* `Walk.run_eq_some_iff_exists`   the counting argument, for any walk that is bounded so;
* `Arena.recordWords`             the words that refer to a place of the arena;
* `render_run_eq_some_iff`, `equal_run_eq_some_iff`   the bounds in use are no restriction.
-/

namespace TaggedWords

namespace Walk

/-! ## counting ranks -/

section
variable {α β : Type} {f : Nat → α → Walk β}
  (succ : ∀ n x, (f n x).Within (f (n + 1) x))
include succ

theorem within_of_le {n m : Nat} (h : n ≤ m) (x : α) : (f n x).Within (f m x) := by
  induction h with
  | refl => exact .refl _
  | step _ ih => exact ih.trans (succ _ x)

theorem outcome_unique {n m : Nat} {x : α} {o o' : Except ArenaError β}
    (h : (f n x).run = some o) (h' : (f m x).run = some o') : o = o' := by
  have hn := within_of_le succ (Nat.le_max_left n m) x o h
  have hm := within_of_le succ (Nat.le_max_right n m) x o' h'
  rw [hn] at hm
  exact Option.some.inj hm

variable [DecidableEq α] {places : Finset α}
  (inner : ∀ n x, (f (n + 2) x).run ≠ none → (f (n + 1) x).run = none →
    x ∈ places ∧ ∃ y, (f (n + 1) y).run ≠ none ∧ (f n y).run = none)
include inner

/-- Below a walk of rank `n + 1` there are `n` different places. -/
theorem exists_places_of_rank (n : Nat) :
    ∀ x, (f (n + 1) x).run ≠ none → (f n x).run = none →
      ∃ below ⊆ places, below.card = n ∧ ∀ y ∈ below, (f (n + 1) y).run ≠ none := by
  induction n with
  | zero =>
    intro x _ _
    exact ⟨∅, Finset.empty_subset places, rfl, by simp⟩
  | succ n ih =>
    intro x hx hnot
    obtain ⟨hplace, y, hy, hynot⟩ := inner n x hx hnot
    obtain ⟨below, hsub, hcard, hends⟩ := ih y hy hynot
    -- `x` is new, because everything below it has a smaller rank
    have hnew : x ∉ below := fun hmem => hends x hmem hnot
    refine ⟨insert x below, Finset.insert_subset hplace hsub, ?_, ?_⟩
    · rw [Finset.card_insert_of_notMem hnew, hcard]
    · intro z hz
      rcases Finset.mem_insert.mp hz with rfl | hz
      · exact hx
      · rw [(succ (n + 1) z).run_eq (hends z hz)]
        exact hends z hz

theorem le_card_of_rank {n : Nat} {x : α} (hx : (f (n + 1) x).run ≠ none)
    (hnot : (f n x).run = none) : n ≤ places.card := by
  obtain ⟨below, hsub, hcard, -⟩ := exists_places_of_rank succ inner n x hx hnot
  rw [← hcard]
  exact Finset.card_le_card hsub

/-- A walk that ends at all ends within one level more than there are places. -/
theorem run_eq_some_iff_exists {bound : Nat} (hbound : places.card + 1 ≤ bound) {x : α}
    {o : Except ArenaError β} :
    (f bound x).run = some o ↔ ∃ n, (f n x).run = some o := by
  refine ⟨fun h => ⟨bound, h⟩, fun ⟨n, h⟩ => ?_⟩
  induction n with
  | zero => exact within_of_le succ (Nat.zero_le bound) x o h
  | succ n ih =>
    cases hn : (f n x).run with
    | some o' =>
      have ho : o = o' := outcome_unique succ h hn
      exact ih (by rw [hn, ho])
    | none =>
      have hends : (f (n + 1) x).run ≠ none := by
        rw [h]
        exact Option.some_ne_none o
      have hle := le_card_of_rank succ inner hends hn
      exact within_of_le succ (by omega) x o h

end

end Walk

namespace Arena

/-! ## the words that refer to records -/

def recordWords (arena : Arena) : Finset Word :=
  (Finset.range arena.places).image fun i =>
    (Reference.ofIndex (2 * i) (Nat.mul_mod_right 2 i)).toWord

theorem card_recordWords_le (arena : Arena) : arena.recordWords.card ≤ arena.places := by
  have h := Finset.card_image_le (s := Finset.range arena.places)
    (f := fun i => (Reference.ofIndex (2 * i) (Nat.mul_mod_right 2 i)).toWord)
  rwa [Finset.card_range] at h

theorem mem_recordWords {arena : Arena} {w : Word} {r : Reference} {elements : List Word}
    (hw : Value.decode w = .tuple r) (hr : arena.record r = .ok elements) :
    w ∈ arena.recordWords := by
  have hlt := index_lt_of_record hr
  have heven := r.index_even
  have hhalf : 2 * (r.index / 2) = r.index := by omega
  refine Finset.mem_image.mpr ⟨r.index / 2, ?_, ?_⟩
  · rw [Finset.mem_range, places]
    omega
  · have hback : Reference.ofIndex (2 * (r.index / 2)) (Nat.mul_mod_right 2 _) = r := by
      simp only [hhalf]
      exact r.ofIndex_index
    rw [hback]
    exact Value.toWord_of_decode hw

/-! ## rendering -/

theorem renderWithin_succ (arena : Arena) (bound : Nat) (w : Word) :
    (arena.renderWithin bound w).Within (arena.renderWithin (bound + 1) w) := by
  induction bound generalizing w with
  | zero => exact Walk.endless_within _
  | succ bound ih =>
    rw [renderWithin, renderWithin]
    refine (Walk.Within.refl _).bind fun layer _ => ?_
    cases layer with
    | atom a => exact .refl _
    | tuple elements =>
      exact (Walk.Within.mapM fun x _ => ih x).bind fun texts _ => .refl _

theorem exists_element_of_rank {arena : Arena} {n : Nat} {w : Word}
    (h : (arena.renderWithin (n + 2) w).run ≠ none)
    (hnot : (arena.renderWithin (n + 1) w).run = none) :
    w ∈ arena.recordWords ∧
      ∃ x, (arena.renderWithin (n + 1) x).run ≠ none ∧ (arena.renderWithin n x).run = none := by
  generalize hl : arena.layer w = layer at *
  have hlayered := arena.layered w
  rw [hl] at hlayered
  cases hlayered with
  | atom value =>
    rw [run_renderWithin_of_atom hl] at hnot
    contradiction
  | dangling value missing =>
    rw [run_renderWithin_of_error hl] at hnot
    contradiction
  | @tuple r elements value found =>
    refine ⟨mem_recordWords value found, ?_⟩
    by_contra hnone
    push Not at hnone
    -- if no element needed the last level, the word would not need it either
    have hback : ∀ x ∈ elements,
        (arena.renderWithin (n + 1) x).Within (arena.renderWithin n x) :=
      fun x _ => (arena.renderWithin_succ n x).symm_of_ends (hnone x)
    rw [renderWithin_of_tuple hl] at h hnot
    obtain ⟨outcome, ho⟩ := Option.ne_none_iff_exists'.mp h
    rw [((Walk.Within.mapM hback).map tupleText) outcome ho] at hnot
    contradiction

/-- **The bound on rendering is no restriction**: a rendering that ends under any bound ends in the
same way under `Arena.renderBound`. -/
theorem render_run_eq_some_iff {arena : Arena} {w : Word} {outcome : Except ArenaError String} :
    (arena.render w).run = some outcome ↔
      ∃ bound, (arena.renderWithin bound w).run = some outcome :=
  Walk.run_eq_some_iff_exists arena.renderWithin_succ (fun _ _ h h' => exists_element_of_rank h h')
    (Nat.succ_le_succ arena.card_recordWords_le)

/-! ## comparing -/

theorem equalWithin_succ (arena : Arena) (bound : Nat) (p : Word × Word) :
    (arena.equalWithin bound p.1 p.2).Within (arena.equalWithin (bound + 1) p.1 p.2) := by
  induction bound generalizing p with
  | zero => exact Walk.endless_within _
  | succ bound ih =>
    rw [equalWithin, equalWithin]
    refine (Walk.Within.refl _).bind fun comparison _ => ?_
    cases comparison with
    | same => exact .refl _
    | different => exact .refl _
    | elementwise pairs => exact Walk.Within.allM fun q _ => ih q

theorem exists_pair_of_rank {arena : Arena} {n : Nat} {p : Word × Word}
    (h : (arena.equalWithin (n + 2) p.1 p.2).run ≠ none)
    (hnot : (arena.equalWithin (n + 1) p.1 p.2).run = none) :
    p ∈ arena.recordWords ×ˢ arena.recordWords ∧
      ∃ q : Word × Word, (arena.equalWithin (n + 1) q.1 q.2).run ≠ none ∧
        (arena.equalWithin n q.1 q.2).run = none := by
  generalize hc : arena.compare p.1 p.2 = comparison at *
  have hcompared := arena.compared p.1 p.2
  rw [hc] at hcompared
  cases hcompared with
  | identical =>
    rw [run_equalWithin_of_same hc] at hnot
    contradiction
  | atomLeft | atomRight | lengths =>
    rw [run_equalWithin_of_different hc] at hnot
    contradiction
  | danglingLeft | danglingRight =>
    rw [run_equalWithin_of_error hc] at hnot
    contradiction
  | @elements r s xs ys _ left right foundLeft foundRight _ =>
    refine ⟨Finset.mem_product.mpr
      ⟨mem_recordWords left foundLeft, mem_recordWords right foundRight⟩, ?_⟩
    by_contra hnone
    push Not at hnone
    -- if no pair needed the last level, the tuples would not need it either
    have hback : ∀ q ∈ xs.zip ys,
        (arena.equalWithin (n + 1) q.1 q.2).Within (arena.equalWithin n q.1 q.2) :=
      fun q _ => (arena.equalWithin_succ n q).symm_of_ends (hnone q)
    rw [equalWithin_of_elementwise hc] at h hnot
    obtain ⟨outcome, ho⟩ := Option.ne_none_iff_exists'.mp h
    rw [Walk.Within.allM hback outcome ho] at hnot
    contradiction

/-- **The bound on comparing is no restriction**: a comparison that ends under any bound ends in the
same way under `Arena.equalBound`. -/
theorem equal_run_eq_some_iff {arena : Arena} {a b : Word} {outcome : Except ArenaError Bool} :
    (arena.equal a b).run = some outcome ↔
      ∃ bound, (arena.equalWithin bound a b).run = some outcome := by
  have hcard : (arena.recordWords ×ˢ arena.recordWords).card ≤ arena.places * arena.places := by
    rw [Finset.card_product]
    exact Nat.mul_le_mul arena.card_recordWords_le arena.card_recordWords_le
  exact Walk.run_eq_some_iff_exists (f := fun n p => arena.equalWithin n p.1 p.2) (x := (a, b))
    arena.equalWithin_succ (fun _ _ h h' => exists_pair_of_rank h h') (Nat.succ_le_succ hcard)

end Arena

end TaggedWords
