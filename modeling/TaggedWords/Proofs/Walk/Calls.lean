import TaggedWords.Proofs.Walk.EqualLoop
import TaggedWords.Proofs.Walk.RenderLoop

/-!
# The calls of a walk

The recursion calls itself for an element of a tuple once it is done with the elements to its left:
these were written, or found equal.  A call is known by its path, the indices of the elements that
lead to it.  It is nested in the calls for the beginnings of its path, so there are as many calls in
progress as the path is long, and itself.

The bounds under which walks are defined count the calls in progress: a walk that ends does so under
a bound exactly if no more calls nest.

* `Arena.RenderCalls`, `Arena.EqualCalls`   the calls that a rendering or a comparison comes to;
* `RenderNestsWithin`, `EqualNestsWithin`   how many of them are in progress at a time;
* `run_renderWithin_iff_nests`, `run_equalWithin_iff_nests`   what a bound on a walk means.
-/

namespace TaggedWords

/-! ## the elements that a walk over a list comes to -/

namespace Walk

variable {α β : Type} {xs before later : List α} {x : α}

theorem run_ne_none_of_mapM {f : α → Walk β} (h : ((before ++ x :: later).mapM f).run ≠ none)
    (hbefore : ∀ y ∈ before, ∀ o, (f y).run = some o → ∃ z, o = .ok z) : (f x).run ≠ none := by
  induction before with
  | nil =>
    intro hx
    rw [List.nil_append, List.mapM_cons, run_bind, hx] at h
    exact h rfl
  | cons y before ih =>
    rw [List.forall_mem_cons] at hbefore
    rw [List.cons_append, List.mapM_cons, run_bind] at h
    cases hy : (f y).run with
    | none =>
      rw [hy] at h
      exact absurd rfl h
    | some o =>
      obtain ⟨z, rfl⟩ := hbefore.1 o hy
      rw [hy] at h
      refine ih (fun hrest => h ?_) hbefore.2
      simp only [run_bind, hrest]

theorem run_ne_none_of_allM {f : α → Walk Bool} (h : ((before ++ x :: later).allM f).run ≠ none)
    (hbefore : ∀ y ∈ before, ∀ o, (f y).run = some o → o = .ok true) : (f x).run ≠ none := by
  induction before with
  | nil =>
    intro hx
    rw [List.nil_append, List.allM_cons, run_bind, hx] at h
    exact h rfl
  | cons y before ih =>
    rw [List.forall_mem_cons] at hbefore
    rw [List.cons_append, List.allM_cons, run_bind] at h
    cases hy : (f y).run with
    | none =>
      rw [hy] at h
      exact absurd rfl h
    | some o =>
      cases hbefore.1 o hy
      rw [hy] at h
      exact ih h hbefore.2

theorem run_mapM_of_reached {f g : α → Walk β} {o : Except ArenaError (List β)}
    (hf : (xs.mapM f).run = some o)
    (h : ∀ before x later, xs = before ++ x :: later →
      (∀ y ∈ before, ∃ z, (f y).run = some (.ok z)) →
      ∀ o, (f x).run = some o → (g x).run = some o) : (xs.mapM g).run = some o := by
  induction xs generalizing o with
  | nil => exact hf
  | cons x xs ih =>
    have hx := h [] x xs rfl fun y hy => absurd hy List.not_mem_nil
    rw [List.mapM_cons] at hf ⊢
    obtain ⟨e, he, rfl⟩ | ⟨z, hz, hrest⟩ := run_bind_eq_some.mp hf
    · exact run_bind_of_error (hx _ he) _
    have htail : (xs.mapM f).Within (xs.mapM g) := by
      refine fun o ho => ih ho fun before y later hsplit hbefore => ?_
      refine h (x :: before) y later (by rw [hsplit, List.cons_append]) ?_
      exact List.forall_mem_cons.mpr ⟨⟨z, hz⟩, hbefore⟩
    rw [run_bind_of_ok (hx _ hz)]
    exact (htail.bind fun zs _ => .refl (pure (z :: zs))) o hrest

theorem run_allM_of_reached {f g : α → Walk Bool} {o : Except ArenaError Bool}
    (hf : (xs.allM f).run = some o)
    (h : ∀ before x later, xs = before ++ x :: later →
      (∀ y ∈ before, (f y).run = some (.ok true)) →
      ∀ o, (f x).run = some o → (g x).run = some o) : (xs.allM g).run = some o := by
  induction xs with
  | nil => exact hf
  | cons x xs ih =>
    have hx := h [] x xs rfl fun y hy => absurd hy List.not_mem_nil
    rw [List.allM_cons] at hf ⊢
    obtain ⟨e, he, rfl⟩ | ⟨b, hb, hrest⟩ := run_bind_eq_some.mp hf
    · exact run_bind_of_error (hx _ he) _
    rw [run_bind_of_ok (hx _ hb)]
    cases b with
    | false => exact hrest
    | true =>
      refine ih hrest fun before y later hsplit hbefore => ?_
      refine h (x :: before) y later (by rw [hsplit, List.cons_append]) ?_
      exact List.forall_mem_cons.mpr ⟨hb, hbefore⟩

end Walk

namespace Arena

variable {arena : Arena} {a b w x y : Word} {path : List Nat} {n : Nat}

/-! ## rendering -/

/-- Rendering `w` comes to a call for `x`: the elements to the left of the path were written. -/
inductive RenderCalls (arena : Arena) : Word → List Nat → Word → Prop where
  | here (w : Word) : RenderCalls arena w [] w
  | element {w x y : Word} {before later : List Word} {path : List Nat}
    (found : arena.layer w = .ok (.tuple (before ++ x :: later)))
    (written : ∀ z ∈ before, ∃ text, arena.RenderEndsWith z (.ok text))
    (inside : RenderCalls arena x path y) : RenderCalls arena w (before.length :: path) y

/-- At most `n` calls of rendering a word are in progress at a time. -/
def RenderNestsWithin (arena : Arena) (n : Nat) (w : Word) : Prop :=
  ∀ path x, arena.RenderCalls w path x → path.length + 1 ≤ n

theorem renderWithin_outcome_unique {m : Nat} {o o' : Except ArenaError String}
    (h : (arena.renderWithin n w).run = some o) (h' : (arena.renderWithin m w).run = some o') :
    o = o' :=
  Walk.outcome_unique arena.renderWithin_succ h h'

theorem RenderCalls.length_lt (hcalls : arena.RenderCalls w path x)
    (h : (arena.renderWithin n w).run ≠ none) : path.length < n := by
  induction hcalls generalizing n with
  | here =>
    obtain _ | n := n
    · exact absurd rfl h
    · exact Nat.succ_pos n
  | element found written _ ih =>
    obtain _ | n := n
    · exact absurd rfl h
    rw [renderWithin_of_tuple found, Walk.run_map, Ne, Option.map_eq_none_iff] at h
    refine Nat.succ_lt_succ (ih (Walk.run_ne_none_of_mapM h fun z hz o ho => ?_))
    obtain ⟨text, m, hm⟩ := written z hz
    exact ⟨text, renderWithin_outcome_unique ho hm⟩

/-- **A bound on a rendering bounds the calls in progress**, and nothing else. -/
theorem run_renderWithin_iff_nests {o : Except ArenaError String} :
    (arena.renderWithin n w).run = some o ↔
      arena.RenderEndsWith w o ∧ arena.RenderNestsWithin n w := by
  constructor
  · intro h
    refine ⟨⟨n, h⟩, fun path x hcalls => hcalls.length_lt (n := n) ?_⟩
    rw [h]
    exact Option.some_ne_none o
  · rintro ⟨⟨m, hm⟩, hnests⟩
    induction n generalizing w o m with
    | zero => exact absurd (hnests [] w (.here w)) (Nat.not_succ_le_zero _)
    | succ n ih =>
      obtain _ | m := m
      · contradiction
      cases hl : arena.layer w with
      | error e => rwa [run_renderWithin_of_error hl, ← run_renderWithin_of_error hl]
      | ok layer =>
        cases layer with
        | atom c => rwa [run_renderWithin_of_atom hl, ← run_renderWithin_of_atom hl]
        | tuple elements =>
          rw [renderWithin_of_tuple hl, Walk.run_map] at hm ⊢
          obtain ⟨o', ho', hmap⟩ := Option.map_eq_some_iff.mp hm
          refine Option.map_eq_some_iff.mpr ⟨o', Walk.run_mapM_of_reached ho' ?_, hmap⟩
          rintro before x later rfl hbefore o hx
          have hwritten : ∀ z ∈ before, ∃ text, arena.RenderEndsWith z (.ok text) := by
            intro z hz
            obtain ⟨text, htext⟩ := hbefore z hz
            exact ⟨text, m, htext⟩
          refine ih (fun path y hcalls => ?_) m hx
          exact Nat.le_of_succ_le_succ (hnests _ y (.element hl hwritten hcalls))

/-! ## comparing -/

/-- Comparing `a` with `b` comes to a call for `x` and `y`: the pairs to the left are equal. -/
inductive EqualCalls (arena : Arena) : Word → Word → List Nat → Word → Word → Prop where
  | here (a b : Word) : EqualCalls arena a b [] a b
  | element {a b x y : Word} {before later : List (Word × Word)} {p : Word × Word} {path : List Nat}
    (found : arena.compare a b = .ok (.elementwise (before ++ p :: later)))
    (passed : ∀ q ∈ before, arena.EqualEndsWith q.1 q.2 (.ok trueWord))
    (inside : EqualCalls arena p.1 p.2 path x y) :
    EqualCalls arena a b (before.length :: path) x y

def EqualNestsWithin (arena : Arena) (n : Nat) (a b : Word) : Prop :=
  ∀ path x y, arena.EqualCalls a b path x y → path.length + 1 ≤ n

theorem equalEndsWith_true_iff : arena.EqualEndsWith a b (.ok trueWord) ↔
    ∃ m, (arena.equalWithin m a b).run = some (.ok true) := by
  refine exists_congr fun m => ?_
  rw [← Word.ofBool_true, Walk.run_map_eq_ok]
  constructor
  · rintro ⟨r, hr, hword⟩
    rwa [← Word.ofBool_inj.mp hword]
  · exact fun h => ⟨true, h, rfl⟩

theorem EqualCalls.length_lt (hcalls : arena.EqualCalls a b path x y)
    (h : (arena.equalWithin n a b).run ≠ none) : path.length < n := by
  induction hcalls generalizing n with
  | here =>
    obtain _ | n := n
    · exact absurd rfl h
    · exact Nat.succ_pos n
  | @element _ _ _ _ _ _ p _ found passed _ ih =>
    obtain _ | n := n
    · exact absurd rfl h
    rw [equalWithin_of_elementwise found] at h
    refine Nat.succ_lt_succ (ih (Walk.run_ne_none_of_allM (x := p) h fun q hq o ho => ?_))
    obtain ⟨m, hm⟩ := equalEndsWith_true_iff.mp (passed q hq)
    exact Walk.outcome_unique (x := q) arena.equalWithin_succ ho hm

/-- **A bound on a comparison bounds the calls in progress**, and nothing else. -/
theorem run_equalWithin_iff_nests {o : Except ArenaError Bool} :
    (arena.equalWithin n a b).run = some o ↔
      (∃ m, (arena.equalWithin m a b).run = some o) ∧ arena.EqualNestsWithin n a b := by
  constructor
  · intro h
    refine ⟨⟨n, h⟩, fun path x y hcalls => hcalls.length_lt (n := n) ?_⟩
    rw [h]
    exact Option.some_ne_none o
  · rintro ⟨⟨m, hm⟩, hnests⟩
    induction n generalizing a b o m with
    | zero => exact absurd (hnests [] a b (.here a b)) (Nat.not_succ_le_zero _)
    | succ n ih =>
      obtain _ | m := m
      · contradiction
      cases hc : arena.compare a b with
      | error e => rwa [run_equalWithin_of_error hc, ← run_equalWithin_of_error hc]
      | ok comparison =>
        cases comparison with
        | same => rwa [run_equalWithin_of_same hc, ← run_equalWithin_of_same hc]
        | different => rwa [run_equalWithin_of_different hc, ← run_equalWithin_of_different hc]
        | elementwise pairs =>
          rw [equalWithin_of_elementwise hc] at hm ⊢
          refine Walk.run_allM_of_reached hm ?_
          rintro before p later rfl hbefore o hp
          have hpassed : ∀ q ∈ before, arena.EqualEndsWith q.1 q.2 (.ok trueWord) :=
            fun q hq => equalEndsWith_true_iff.mpr ⟨m, hbefore q hq⟩
          refine ih (fun path x y hcalls => ?_) m hp
          exact Nat.le_of_succ_le_succ (hnests _ x y (.element hc hpassed hcalls))

end Arena

end TaggedWords
