import TaggedWords.Proofs.Walk.Calls
import TaggedWords.Proofs.Walk.Reach

/-!
# Walks that end

A walk never ends only if it goes round in a circle of records.  From a word that reaches no such
circle all paths are short: the tuples on a path refer to different records, and records start at
`arena.places` places only.  A comparison goes down two unfoldings at once, so it ends as soon as
one of them has short paths, whatever the other one holds.

Conversely no walk that ends nests deeper than there are places, or pairs of places, to come to.

* `Arena.ReachesItself`, `Arena.Acyclic`   circles of records, and words that reach none;
* `Acyclic.length_le_places`   the paths below such a word are short;
* `Arena.IsShallow`            the paths below a word are shorter than a bound;
* `run_renderWithin_ne_none`, `run_equalWithin_ne_none`   this bound suffices for a walk;
* `walks_end_and_nest`         when walks end, and how deep those nest that end.
-/

namespace TaggedWords

namespace Walk

variable {α β : Type} {xs : List α}

theorem run_mapM_ne_none {f : α → Walk β} (h : ∀ x ∈ xs, (f x).run ≠ none) :
    (xs.mapM f).run ≠ none := by
  induction xs with
  | nil => exact Option.some_ne_none _
  | cons x xs ih =>
    rw [List.forall_mem_cons] at h
    obtain ⟨o, ho⟩ := Option.ne_none_iff_exists'.mp h.1
    obtain ⟨o', ho'⟩ := Option.ne_none_iff_exists'.mp (ih h.2)
    rw [List.mapM_cons, run_bind, ho]
    cases o with
    | error e => exact Option.some_ne_none _
    | ok y =>
      simp only [run_bind, ho']
      cases o' <;> exact Option.some_ne_none _

theorem run_allM_ne_none {f : α → Walk Bool} (h : ∀ x ∈ xs, (f x).run ≠ none) :
    (xs.allM f).run ≠ none := by
  induction xs with
  | nil => exact Option.some_ne_none _
  | cons x xs ih =>
    rw [List.forall_mem_cons] at h
    obtain ⟨o, ho⟩ := Option.ne_none_iff_exists'.mp h.1
    rw [List.allM_cons, run_bind, ho]
    match o with
    | .error e => exact Option.some_ne_none _
    | .ok false => exact Option.some_ne_none _
    | .ok true => exact ih h.2

end Walk

namespace Arena

variable {arena : Arena} {a b u w x : Word} {r : Reference} {elements : List Word}
  {path : List Nat} {n : Nat}

/-! ## circles of records -/

/-- The record at `r` lies inside the arena, and one of its elements reaches it again. -/
def ReachesItself (arena : Arena) (r : Reference) : Prop :=
  ∃ elements, arena.record r = .ok elements ∧ ∃ u ∈ elements, arena.Reaches u r

/-- No record that the word reaches reaches itself. -/
def Acyclic (arena : Arena) (w : Word) : Prop :=
  ∀ r, arena.Reaches w r → ¬ arena.ReachesItself r

theorem Acyclic.element (h : arena.Acyclic w) (value : Value.decode w = .tuple r)
    (found : arena.record r = .ok elements) (hu : u ∈ elements) : arena.Acyclic u :=
  fun s hs => h s (hs.of_element value found hu)

/-- The tuples along a path refer to different records. -/
theorem Acyclic.exists_along (h : arena.Acyclic w) (hat : arena.WordAt w path x) :
    ∃ along ⊆ arena.recordWords, along.card = path.length ∧
      ∀ y ∈ along, ∃ s, Value.decode y = .tuple s ∧ arena.Reaches w s := by
  induction hat with
  | here w => exact ⟨∅, Finset.empty_subset _, rfl, by simp⟩
  | @element w u x r elements i path value found element _ ih =>
    have hu := List.mem_of_getElem? element
    obtain ⟨along, hsub, hcard, hreach⟩ := ih (h.element value found hu)
    -- the first tuple does not come back, because it would reach itself
    have hnew : w ∉ along := by
      intro hmem
      obtain ⟨s, hs, hback⟩ := hreach w hmem
      cases value.symm.trans hs
      exact h r (reaches_of_decode value) ⟨elements, found, u, hu, hback⟩
    refine ⟨insert w along, Finset.insert_subset (mem_recordWords value found) hsub, ?_, ?_⟩
    · rw [Finset.card_insert_of_notMem hnew, hcard, List.length_cons]
    · intro y hy
      rcases Finset.mem_insert.mp hy with rfl | hy
      · exact ⟨r, value, reaches_of_decode value⟩
      · obtain ⟨s, hs, hback⟩ := hreach y hy
        exact ⟨s, hs, hback.of_element value found hu⟩

/-- **Below a word that reaches no circle all paths are short.** -/
theorem Acyclic.length_le_places (h : arena.Acyclic w) (hat : arena.WordAt w path x) :
    path.length ≤ arena.places := by
  obtain ⟨along, hsub, hcard, -⟩ := h.exists_along hat
  rw [← hcard]
  exact (Finset.card_le_card hsub).trans arena.card_recordWords_le

/-! ## shallow words -/

/-- All paths of the unfolding of a word are shorter than `n`. -/
def IsShallow (arena : Arena) (n : Nat) (w : Word) : Prop :=
  ∀ path x, arena.WordAt w path x → path.length < n

theorem Acyclic.isShallow (h : arena.Acyclic w) : arena.IsShallow (arena.places + 1) w :=
  fun _ _ hat => Nat.lt_succ_of_le (h.length_le_places hat)

theorem not_isShallow_zero : ¬ arena.IsShallow 0 w :=
  fun h => Nat.not_lt_zero _ (h [] w (.here w))

theorem IsShallow.element (h : arena.IsShallow (n + 1) w) (value : Value.decode w = .tuple r)
    (found : arena.record r = .ok elements) (hu : u ∈ elements) : arena.IsShallow n u := by
  intro path x hat
  obtain ⟨i, hi⟩ := List.getElem?_of_mem hu
  exact Nat.lt_of_succ_lt_succ (h (i :: path) x (.element value found hi hat))

theorem run_renderWithin_ne_none (h : arena.IsShallow n w) :
    (arena.renderWithin n w).run ≠ none := by
  induction n generalizing w with
  | zero => exact absurd h not_isShallow_zero
  | succ n ih =>
    generalize hl : arena.layer w = layer
    have hlayered := arena.layered w
    rw [hl] at hlayered
    cases hlayered with
    | atom =>
      rw [run_renderWithin_of_atom hl]
      exact Option.some_ne_none _
    | dangling =>
      rw [run_renderWithin_of_error hl]
      exact Option.some_ne_none _
    | tuple value found =>
      rw [renderWithin_of_tuple hl, Walk.run_map, Ne, Option.map_eq_none_iff]
      exact Walk.run_mapM_ne_none fun u hu => ih (h.element value found hu)

theorem run_equalWithin_ne_none (h : arena.IsShallow n a ∨ arena.IsShallow n b) :
    (arena.equalWithin n a b).run ≠ none := by
  induction n generalizing a b with
  | zero => exact absurd h (not_or.mpr ⟨not_isShallow_zero, not_isShallow_zero⟩)
  | succ n ih =>
    generalize hc : arena.compare a b = comparison
    have hcompared := arena.compared a b
    rw [hc] at hcompared
    cases hcompared with
    | identical =>
      rw [run_equalWithin_of_same hc]
      exact Option.some_ne_none _
    | atomLeft | atomRight | lengths =>
      rw [run_equalWithin_of_different hc]
      exact Option.some_ne_none _
    | danglingLeft | danglingRight =>
      rw [run_equalWithin_of_error hc]
      exact Option.some_ne_none _
    | elements ne left right foundLeft foundRight length =>
      rw [equalWithin_of_elementwise hc]
      refine Walk.run_allM_ne_none fun p hp => ih ?_
      obtain ⟨hx, hy⟩ := List.of_mem_zip hp
      exact h.imp (fun ha => ha.element left foundLeft hx) fun hb => hb.element right foundRight hy

/-! ## walks that end -/

theorem exists_rendersTo_of_acyclic (h : arena.Acyclic w) :
    ∃ outcome, arena.RendersTo w outcome := by
  obtain ⟨outcome, ho⟩ := Option.ne_none_iff_exists'.mp (run_renderWithin_ne_none h.isShallow)
  exact ⟨outcome, rendersTo_of_renderEndsWith ⟨_, ho⟩⟩

theorem exists_run_equalWithin_of_acyclic (h : arena.Acyclic a ∨ arena.Acyclic b) :
    ∃ o, (arena.equalWithin (arena.places + 1) a b).run = some o :=
  Option.ne_none_iff_exists'.mp
    (run_equalWithin_ne_none (h.imp Acyclic.isShallow Acyclic.isShallow))

theorem exists_comparesTo_of_acyclic (h : arena.Acyclic a ∨ arena.Acyclic b) :
    ∃ outcome, arena.ComparesTo a b outcome := by
  obtain ⟨o, ho⟩ := exists_run_equalWithin_of_acyclic h
  refine ⟨o.map Word.ofBool, comparesTo_of_equalEndsWith ⟨arena.places + 1, ?_⟩⟩
  rw [Walk.run_map, ho]
  rfl

theorem RenderEndsWith.nestsWithin {outcome : Except ArenaError String}
    (h : arena.RenderEndsWith w outcome) : arena.RenderNestsWithin (arena.places + 1) w :=
  (run_renderWithin_iff_nests.mp (render_run_eq_some_iff.mpr h)).2

theorem EqualEndsWith.nestsWithin {outcome : Except ArenaError Word}
    (h : arena.EqualEndsWith a b outcome) :
    arena.EqualNestsWithin (arena.places * arena.places + 1) a b := by
  obtain ⟨depth, hdepth⟩ := h
  rw [Walk.run_map] at hdepth
  obtain ⟨o, ho, -⟩ := Option.map_eq_some_iff.mp hdepth
  have hbound : (arena.equal a b).run = some o := equal_run_eq_some_iff.mpr ⟨depth, ho⟩
  exact (run_equalWithin_iff_nests.mp hbound).2

/-- **When walks end, and how deep they nest.**  It is enough for a comparison that one of the words
reaches no circle.  The nesting is bounded by the number of places, or of pairs of places. -/
theorem walks_end_and_nest (arena : Arena) (w a b : Word) :
    (arena.Acyclic w → ∃ outcome, arena.RendersTo w outcome) ∧
    (arena.Acyclic a ∨ arena.Acyclic b → ∃ outcome, arena.ComparesTo a b outcome) ∧
    (∀ outcome, arena.RenderEndsWith w outcome → arena.RenderNestsWithin (arena.places + 1) w) ∧
    (∀ outcome, arena.EqualEndsWith a b outcome →
      arena.EqualNestsWithin (arena.places * arena.places + 1) a b ∧
      (arena.Acyclic a ∨ arena.Acyclic b → arena.EqualNestsWithin (arena.places + 1) a b)) := by
  refine ⟨exists_rendersTo_of_acyclic, exists_comparesTo_of_acyclic, fun _ h => h.nestsWithin,
    fun _ h => ⟨h.nestsWithin, fun hacyclic => ?_⟩⟩
  obtain ⟨o, ho⟩ := exists_run_equalWithin_of_acyclic hacyclic
  exact (run_equalWithin_iff_nests.mp ho).2

/-- Rendering a record that holds itself has no end; comparing it with nested records has one. -/
theorem walks_end_and_nest_one_circle :
    (∃ outcome, (⟨#[1, 1, 1, 2, 1, 9]⟩ : Arena).RendersTo 17 outcome) ∧
    (⟨#[1, 1, 1, 2, 1, 9]⟩ : Arena).RenderNestsWithin 4 17 ∧
    (∀ outcome, ¬ (⟨#[1, 1, 1, 2, 1, 9]⟩ : Arena).RenderEndsWith 1 outcome) ∧
    (∃ outcome, (⟨#[1, 1, 1, 2, 1, 9]⟩ : Arena).ComparesTo 1 17 outcome) ∧
    (⟨#[1, 1, 1, 2, 1, 9]⟩ : Arena).EqualNestsWithin 4 1 17 := by
  generalize harena : (⟨#[1, 1, 1, 2, 1, 9]⟩ : Arena) = arena
  have hinner : arena.record ⟨8, rfl⟩ = .ok [2] := by subst harena; decide
  have houter : arena.record ⟨16, rfl⟩ = .ok [9] := by subst harena; decide
  have hplaces : arena.places + 1 = 4 := by subst harena; rfl
  have hnone : (arena.render 1).run = none := by subst harena; decide
  -- the nested records reach each other in one direction only
  have hatom : ∀ s, ¬ arena.Reaches 2 s := fun s => not_reaches_of_atom (c := .int 1) (by decide)
  have hreach9 : ∀ s, arena.Reaches 9 s ↔ s = ⟨8, rfl⟩ := by
    intro s
    rw [reaches_iff_of_record (by decide) hinner]
    simp [hatom]
  have hreach17 : ∀ s, arena.Reaches 17 s ↔ s = ⟨16, rfl⟩ ∨ s = ⟨8, rfl⟩ := by
    intro s
    rw [reaches_iff_of_record (by decide) houter]
    simp [hreach9]
  have hacyclic : arena.Acyclic 17 := by
    intro r hr
    rintro ⟨elements, found, u, hu, hback⟩
    rcases (hreach17 r).mp hr with rfl | rfl
    · cases houter.symm.trans found
      cases List.mem_singleton.mp hu
      exact absurd ((hreach9 _).mp hback) (by decide)
    · cases hinner.symm.trans found
      cases List.mem_singleton.mp hu
      exact hatom _ hback
  obtain ⟨hrenders, hcompares, hrendernests, hequalnests⟩ := walks_end_and_nest arena 17 1 17
  obtain ⟨text, htext⟩ := hrenders hacyclic
  obtain ⟨outcome, houtcome⟩ := hcompares (.inr hacyclic)
  rw [hplaces] at hrendernests hequalnests
  refine ⟨⟨text, htext⟩, hrendernests text htext.recursion, fun o ho => ?_, ⟨outcome, houtcome⟩,
    (hequalnests outcome houtcome.recursion).2 (.inr hacyclic)⟩
  rw [render_run_eq_some_iff.mpr ho] at hnone
  contradiction

end Arena

end TaggedWords
