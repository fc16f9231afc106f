import TaggedWords.Proofs.Walk.Agenda
import TaggedWords.Proofs.Walk.RenderLoop

/-!
# What the work stacks go through

Rendering and comparing with a work stack note each tuple, or pair of tuples, that they descend
into, and what waits on the stack meanwhile.  What is noted follows from the unfolding alone: the
tuples are those before the first dangling reference, the pairs those before the first decisive one,
both in pre-order; and on the stack is what the path to them leaves to its right.

* `Arena.rendering`, `Arena.comparing`   what the two loops find in their entries;
* `awaits_ofElements`                    what is pushed for a tuple, as tasks;
* `preorder_of_renderPending`, `preorder_of_comparePending`   the visits of each loop, for any stack;
* `stacks_hold_what_is_unfinished`       the visits of a rendering, and those of a comparison.
-/

namespace TaggedWords

/-! ## tuples pushed on the stack -/

namespace PendingPiece

variable {bound i : Nat} {elements : List Word} {rest : List PendingPiece} {t : Task Word}
  {tasks : List (Task Word)}

def word? : PendingPiece → Option Word
  | .word _ w => some w
  | .text _ => none

/-- For so many elements: each with a comma before it, and the closing parenthesis. -/
abbrev weight (later : Nat) : Nat := 1 + 2 * later

theorem length_comma_ofElements (bound : Nat) {elements : List Word} (h : elements ≠ []) :
    (text "," :: ofElements bound elements).length = weight elements.length := by
  fun_induction ofElements bound elements with
  | case1 => contradiction
  | case2 w => rfl
  | case3 w rest hrest ih =>
    have hlength := ih hrest
    simp only [List.length_cons, weight] at hlength ⊢
    omega

theorem awaits_ofElements (depth : t.depth = rest.length) (h : Awaits word? rest tasks) :
    Awaits word? (ofElements bound elements ++ rest) (t.below weight i elements ++ tasks) := by
  fun_induction ofElements bound elements generalizing i with
  | case1 => exact .pass rfl h
  | case2 w =>
    refine .task rfl ?_ (.pass rfl h)
    show t.depth + 1 = rest.length + 1
    rw [depth]
  | case3 w later hlater ih =>
    refine .task rfl ?_ (.pass rfl ih)
    show t.depth + weight later.length = (text "," :: ofElements bound later ++ rest).length
    rw [List.length_append, length_comma_ofElements bound hlater, depth, Nat.add_comm]

end PendingPiece

namespace PendingPair

theorem awaits_ofElements {bound i : Nat} {pairs : List (Word × Word)} {rest : List PendingPair}
    {t : Task (Word × Word)} {tasks : List (Task (Word × Word))} (depth : t.depth = rest.length)
    (h : Awaits (fun p => some (words p)) rest tasks) :
    Awaits (fun p => some (words p)) (ofElements bound pairs ++ rest)
      (t.below (fun later => later) i pairs ++ tasks) := by
  induction pairs generalizing i with
  | nil => exact h
  | cons p later ih =>
    refine .task rfl ?_ ih
    show t.depth + later.length = (ofElements bound later ++ rest).length
    rw [List.length_append, ofElements, List.length_map, depth, Nat.add_comm]

end PendingPair

namespace Arena

variable {arena : Arena} {a b w : Word} {visits : Array Visit}

/-! ## rendering -/

/-- Rendering descends into the tuples whose records lie inside the arena. -/
def rendering (arena : Arena) : Unfolding Word where
  Opens w elements := ∃ r, Value.decode w = .tuple r ∧ arena.record r = .ok elements
  Stops := arena.Dangles
  weight := PendingPiece.weight
  unique := by
    rintro w xs ys ⟨r, value, found⟩ ⟨s, value', found'⟩
    cases value.symm.trans value'
    cases found.symm.trans found'
    rfl
  not_stops := by
    rintro w xs ⟨r, value, found⟩ ⟨s, value', hmissing⟩
    cases value.symm.trans value'
    exact not_isMissing_of_found found hmissing

theorem opens_of_layer {elements : List Word} (h : arena.layer w = .ok (.tuple elements)) :
    arena.rendering.Opens w elements := by
  have hl := arena.layered w
  rw [h] at hl
  cases hl with
  | tuple value found => exact ⟨_, value, found⟩

theorem stops_of_layer {e : ArenaError} (h : arena.layer w = .error e) :
    arena.rendering.Stops w := by
  have hl := arena.layered w
  rw [h] at hl
  cases hl with
  | dangling value missing => exact ⟨_, value, e, missing⟩

theorem noTuple_of_layer {c : Atom} (h : arena.layer w = .ok (.atom c)) : NoTuple w := by
  have hl := arena.layered w
  rw [h] at hl
  cases hl with
  | atom value => exact noTuple_of_atom value

theorem preorder_of_renderPending {out : String} {pending : Stack PendingPiece} {t : Traced String}
    {tasks : List (Task Word)} (h : arena.renderPending visits out pending = some t)
    (hawaits : Awaits PendingPiece.word? pending.items tasks) (hapart : tasks.Pairwise Task.Apart) :
    ∃ more, t.visits.toList = visits.toList ++ more ∧ arena.rendering.Preorder tasks more := by
  fun_induction renderPending arena visits out pending generalizing tasks with
  | case1 visits out pending hpop =>
    cases h
    rw [Stack.items_of_pop?_eq_none hpop] at hawaits
    cases hawaits
    exact ⟨[], (List.append_nil _).symm, Unfolding.preorder_nil⟩
  | case2 visits out pending text rest hpop ih =>
    rw [Stack.items_of_pop?_eq_some hpop] at hawaits
    exact ih h (hawaits.of_none rfl) hapart
  | case3 => contradiction
  | case4 visits out pending bound w rest hpop e hl =>
    cases h
    rw [Stack.items_of_pop?_eq_some hpop] at hawaits
    obtain ⟨path, tasks, rfl, -⟩ := hawaits.exists_task rfl
    exact ⟨[], (List.append_nil _).symm, Unfolding.preorder_of_stops (stops_of_layer hl) hapart⟩
  | case5 visits out pending bound w rest hpop c hl ih =>
    rw [Stack.items_of_pop?_eq_some hpop] at hawaits
    obtain ⟨path, tasks, rfl, htail⟩ := hawaits.exists_task rfl
    obtain ⟨more, hvisits, hmore⟩ := ih h htail hapart.tail
    have hnone := noTuple_of_layer hl
    refine ⟨more, hvisits, Unfolding.preorder_of_passes ?_ ?_ hmore⟩
    · rintro us ⟨r, value, -⟩
      exact hnone r value
    · rintro ⟨r, value, -⟩
      exact hnone r value
  | case6 visits out pending bound w rest hpop elements hl ih =>
    rw [Stack.items_of_pop?_eq_some hpop] at hawaits
    obtain ⟨path, tasks, rfl, htail⟩ := hawaits.exists_task rfl
    obtain ⟨more, hvisits, hmore⟩ := ih h (PendingPiece.awaits_ofElements rfl htail)
      (Task.pairwise_below_append hapart _ elements)
    refine ⟨_, ?_, Unfolding.preorder_of_opens (opens_of_layer hl) hapart hmore⟩
    rw [hvisits, Array.toList_push, List.append_assoc, rest.size_eq]
    rfl

/-! ## comparing -/

theorem compare_of_records {r s : Reference} {xs ys : List Word} (ne : a ≠ b)
    (left : Value.decode a = .tuple r) (right : Value.decode b = .tuple s)
    (foundLeft : arena.record r = .ok xs) (foundRight : arena.record s = .ok ys)
    (length : xs.length = ys.length) :
    arena.compare a b = .ok (.elementwise (xs.zip ys)) := by
  rw [compare, if_neg ne, left, right]
  show (arena.record r >>= fun xs => arena.record s >>= fun ys => pure (compareRecords xs ys)) = _
  rw [foundLeft, foundRight]
  show Except.ok (compareRecords xs ys) = _
  rw [compareRecords, if_pos length]

/-- Comparing descends into different tuples of one length, and ends at a decisive pair. -/
def comparing (arena : Arena) : Unfolding (Word × Word) where
  Opens p pairs := ∃ r s xs ys, p.1 ≠ p.2 ∧ Value.decode p.1 = .tuple r ∧
    Value.decode p.2 = .tuple s ∧ arena.record r = .ok xs ∧ arena.record s = .ok ys ∧
    xs.length = ys.length ∧ pairs = xs.zip ys
  Stops p := arena.Decisive p.1 p.2
  weight later := later
  unique := by
    rintro p _ _ ⟨r, s, xs, ys, ne, left, right, foundLeft, foundRight, length, rfl⟩
      ⟨r', s', xs', ys', -, left', right', foundLeft', foundRight', -, rfl⟩
    cases left.symm.trans left'
    cases right.symm.trans right'
    cases foundLeft.symm.trans foundLeft'
    cases foundRight.symm.trans foundRight'
    rfl
  not_stops := by
    rintro p _ ⟨r, s, xs, ys, ne, left, right, foundLeft, foundRight, length, rfl⟩
    exact not_decisive_of_elementwise
      (compare_of_records ne left right foundLeft foundRight length)

theorem eq_of_compare_same (h : arena.compare a b = .ok .same) : a = b := by
  have hc := arena.compared a b
  rw [h] at hc
  cases hc with
  | identical same => exact same

theorem preorder_of_comparePending {pending : Stack PendingPair} {t : Traced Bool}
    {tasks : List (Task (Word × Word))} (h : arena.comparePending visits pending = some t)
    (hawaits : Awaits (fun p => some p.words) pending.items tasks)
    (hapart : tasks.Pairwise Task.Apart) :
    ∃ more, t.visits.toList = visits.toList ++ more ∧ arena.comparing.Preorder tasks more := by
  fun_induction comparePending arena visits pending generalizing tasks with
  | case1 visits pending hpop =>
    cases h
    rw [Stack.items_of_pop?_eq_none hpop] at hawaits
    cases hawaits
    exact ⟨[], (List.append_nil _).symm, Unfolding.preorder_nil⟩
  | case2 => contradiction
  | case3 visits pending bound a b rest hpop e hc =>
    cases h
    rw [Stack.items_of_pop?_eq_some hpop] at hawaits
    obtain ⟨path, tasks, rfl, -⟩ := hawaits.exists_task rfl
    have hdecisive := decisive_of_verdict (verdict_of_error hc)
    exact ⟨[], (List.append_nil _).symm, Unfolding.preorder_of_stops hdecisive hapart⟩
  | case4 visits pending bound a b rest hpop hc ih =>
    rw [Stack.items_of_pop?_eq_some hpop] at hawaits
    obtain ⟨path, tasks, rfl, htail⟩ := hawaits.exists_task rfl
    obtain ⟨more, hvisits, hmore⟩ := ih h htail hapart.tail
    have hsame := eq_of_compare_same hc
    refine ⟨more, hvisits, Unfolding.preorder_of_passes ?_ ?_ hmore⟩
    · rintro us ⟨-, -, -, -, ne, -⟩
      exact ne hsame
    · exact fun hdecisive => hdecisive.ne hsame
  | case5 visits pending bound a b rest hpop hc =>
    cases h
    rw [Stack.items_of_pop?_eq_some hpop] at hawaits
    obtain ⟨path, tasks, rfl, -⟩ := hawaits.exists_task rfl
    have hdecisive := decisive_of_verdict (verdict_of_different hc)
    exact ⟨[], (List.append_nil _).symm, Unfolding.preorder_of_stops hdecisive hapart⟩
  | case6 visits pending bound a b rest hpop pairs hc ih =>
    rw [Stack.items_of_pop?_eq_some hpop] at hawaits
    obtain ⟨path, tasks, rfl, htail⟩ := hawaits.exists_task rfl
    obtain ⟨more, hvisits, hmore⟩ := ih h (PendingPair.awaits_ofElements rfl htail)
      (Task.pairwise_below_append hapart _ pairs)
    refine ⟨_, ?_, Unfolding.preorder_of_opens (exists_found_of_elementwise hc) hapart hmore⟩
    rw [hvisits, Array.toList_push, List.append_assoc, rest.size_eq]
    rfl

/-! ## the visits of a walk -/

/-- **The work stacks hold exactly what is unfinished**: of each tuple above a visit, the elements
to the right of the path. -/
theorem stacks_hold_what_is_unfinished (arena : Arena) :
    (∀ w outcome, arena.RenderEndsWith w outcome → ∃ t, arena.renderTraced w = some t ∧
      t.outcome = outcome ∧
      Preordered (arena.rendering.NodeAt w) (arena.rendering.StopAt w) t.visits.toList) ∧
    (∀ a b outcome, arena.EqualEndsWith a b outcome → ∃ t, arena.equalTraced a b = some t ∧
      t.outcome.map Word.ofBool = outcome ∧
      Preordered (arena.comparing.NodeAt (a, b)) (arena.comparing.StopAt (a, b))
        t.visits.toList) := by
  constructor
  · intro w outcome h
    obtain ⟨t, ht, houtcome⟩ := Option.map_eq_some_iff.mp
      (rendersTo_of_renderEndsWith h).renderByStack
    obtain ⟨more, hvisits, hmore⟩ :=
      preorder_of_renderPending ht (.task rfl rfl .nil) (List.pairwise_singleton _ ⟨[], 0, w⟩)
    rw [List.nil_append] at hvisits
    exact ⟨t, ht, houtcome, hvisits ▸ Unfolding.preorder_whole.mp hmore⟩
  · intro a b outcome h
    have hends := (comparesTo_of_equalEndsWith h).equalWordByStack
    rw [equalWordByStack, Walk.run_map] at hends
    obtain ⟨o, ho, houtcome⟩ := Option.map_eq_some_iff.mp hends
    obtain ⟨t, ht, rfl⟩ := Option.map_eq_some_iff.mp ho
    obtain ⟨more, hvisits, hmore⟩ :=
      preorder_of_comparePending ht (.task rfl rfl .nil)
        (List.pairwise_singleton _ ⟨[], 0, (a, b)⟩)
    rw [List.nil_append] at hvisits
    exact ⟨t, ht, houtcome, hvisits ▸ Unfolding.preorder_whole.mp hmore⟩

/-- At the inner tuples there wait a comma, an element and the closing parenthesis of the outer one,
or the last pair of elements. -/
theorem stacks_hold_what_is_unfinished_nested :
    let arena : Arena := ⟨#[3, 3, 17, 801, 1, 809, 3, 3, 41, 801, 1, 817]⟩
    arena.RenderEndsWith 1 (.error (.outOfBounds 808 12)) ∧
      Preordered (arena.rendering.NodeAt 1) (arena.rendering.StopAt 1) [⟨3, 0⟩, ⟨1, 3⟩] ∧
      arena.EqualEndsWith 1 25 (.error (.outOfBounds 808 12)) ∧
      Preordered (arena.comparing.NodeAt (1, 25)) (arena.comparing.StopAt (1, 25))
        [⟨3, 0⟩, ⟨1, 1⟩] := by
  intro arena
  have hrenders : arena.RenderEndsWith 1 (.error (.outOfBounds 808 12)) := ⟨3, by decide⟩
  have hrendered : (arena.renderTraced 1).map Traced.visits = some #[⟨3, 0⟩, ⟨1, 3⟩] := by
    decide +kernel
  have hequals : arena.EqualEndsWith 1 25 (.error (.outOfBounds 808 12)) := ⟨3, by decide⟩
  have hcompared : (arena.equalTraced 1 25).map Traced.visits = some #[⟨3, 0⟩, ⟨1, 1⟩] := by
    decide +kernel
  obtain ⟨hrendering, hcomparing⟩ := stacks_hold_what_is_unfinished arena
  obtain ⟨t, ht, -, htuples⟩ := hrendering 1 _ hrenders
  obtain ⟨s, hs, -, hpairs⟩ := hcomparing 1 25 _ hequals
  rw [ht] at hrendered
  rw [hs] at hcompared
  rw [Option.some.inj hrendered] at htuples
  rw [Option.some.inj hcompared] at hpairs
  exact ⟨hrenders, htuples, hequals, hpairs⟩

end Arena

end TaggedWords
