import TaggedWords.Walk.Basic

/-!
# Walks that go at least as far

A walk with a tighter bound on its nesting may miss its end, but it never ends differently.
`Walk.Within p q` says that `q` ends wherever `p` does, and in the same way.  Composing walks
respects this order, so a recursion over bounds is monotone as soon as its step is.

* `Walk.Within`                 whatever `p` ends with, `q` ends with too;
* `Within.bind`, `Within.mapM`, `Within.allM`   composing walks respects the order;
* `run_bind_eq_some`            how a composed walk ends;
* `run_mapM_cons_eq_ok`, `run_allM_eq_true`     how a walk over a list ends well.
-/

namespace TaggedWords

namespace Walk

variable {α β γ : Type}

/-! ## how composed walks end -/

theorem run_bind_eq_some {walk : Walk α} {next : α → Walk β} {outcome : Except ArenaError β} :
    (walk >>= next).run = some outcome ↔
      (∃ e, walk.run = some (.error e) ∧ outcome = .error e) ∨
        ∃ a, walk.run = some (.ok a) ∧ (next a).run = some outcome := by
  rw [run_bind]
  rcases walk.run with _ | e | a
  · simp
  · simp [eq_comm]
  · simp

theorem run_bind_of_ok {walk : Walk α} {a : α} (h : walk.run = some (.ok a)) (next : α → Walk β) :
    (walk >>= next).run = (next a).run := by
  rw [run_bind, h]

theorem run_bind_of_error {walk : Walk α} {e : ArenaError} (h : walk.run = some (.error e))
    (next : α → Walk β) : (walk >>= next).run = some (.error e) := by
  rw [run_bind, h]

theorem allM_append (f : α → Walk Bool) (xs ys : List α) :
    (xs ++ ys).allM f = xs.allM f >>= fun b => if b then ys.allM f else pure false := by
  induction xs with
  | nil => rfl
  | cons x xs ih =>
    rw [List.cons_append, List.allM_cons, List.allM_cons, ih, bind_assoc]
    congr 1
    funext b
    cases b <;> rfl

theorem run_pure (a : α) : (pure a : Walk α).run = some (.ok a) := rfl

theorem run_map (f : α → β) (walk : Walk α) :
    (f <$> walk).run = walk.run.map (Except.map f) := by
  rw [map_eq_pure_bind, run_bind]
  rcases walk.run with _ | e | a <;> rfl

theorem run_map_eq_ok {f : α → β} {walk : Walk α} {b : β} :
    (f <$> walk).run = some (.ok b) ↔ ∃ a, walk.run = some (.ok a) ∧ f a = b := by
  rw [run_map]
  rcases walk.run with _ | e | a <;> simp [Except.map]

/-! ## walks over lists -/

theorem mapM_map (f : α → Walk β) (g : β → γ) (xs : List α) :
    xs.mapM (fun x => g <$> f x) = List.map g <$> xs.mapM f := by
  induction xs with
  | nil => rfl
  | cons x xs ih => simp [ih]

theorem run_mapM_cons_eq_ok {f : α → Walk β} {x : α} {xs : List α} {ys : List β} :
    ((x :: xs).mapM f).run = some (.ok ys) ↔
      ∃ y ys', (f x).run = some (.ok y) ∧ (xs.mapM f).run = some (.ok ys') ∧ y :: ys' = ys := by
  rw [List.mapM_cons]
  constructor
  · intro h
    obtain ⟨e, _, he⟩ | ⟨y, hy, h⟩ := run_bind_eq_some.mp h
    · contradiction
    obtain ⟨e, _, he⟩ | ⟨ys', hys, h⟩ := run_bind_eq_some.mp h
    · contradiction
    cases h
    exact ⟨y, ys', hy, hys, rfl⟩
  · rintro ⟨y, ys', hy, hys, rfl⟩
    rw [run_bind_of_ok hy, run_bind_of_ok hys]
    rfl

theorem length_of_mapM {f : α → Walk β} {xs : List α} {ys : List β}
    (h : (xs.mapM f).run = some (.ok ys)) : ys.length = xs.length := by
  induction xs generalizing ys with
  | nil =>
    cases h
    rfl
  | cons x xs ih =>
    obtain ⟨y, ys', -, hys, rfl⟩ := run_mapM_cons_eq_ok.mp h
    rw [List.length_cons, List.length_cons, ih hys]

theorem exists_of_run_mapM {f : α → Walk β} {xs : List α} {ys : List β}
    (h : (xs.mapM f).run = some (.ok ys)) : ∀ x ∈ xs, ∃ y, (f x).run = some (.ok y) := by
  induction xs generalizing ys with
  | nil => exact fun x hx => absurd hx List.not_mem_nil
  | cons x xs ih =>
    obtain ⟨y, ys', hy, hys, -⟩ := run_mapM_cons_eq_ok.mp h
    exact List.forall_mem_cons.mpr ⟨⟨y, hy⟩, ih hys⟩

theorem run_mapM_of_ok {f g : α → Walk β} {xs : List α} {ys : List β}
    (hfg : ∀ x ∈ xs, ∀ y, (f x).run = some (.ok y) → (g x).run = some (.ok y))
    (hf : (xs.mapM f).run = some (.ok ys)) : (xs.mapM g).run = some (.ok ys) := by
  induction xs generalizing ys with
  | nil => exact hf
  | cons x xs ih =>
    rw [List.forall_mem_cons] at hfg
    obtain ⟨y, ys', hy, hys, rfl⟩ := run_mapM_cons_eq_ok.mp hf
    exact run_mapM_cons_eq_ok.mpr ⟨y, ys', hfg.1 y hy, ih hfg.2 hys, rfl⟩

theorem exists_split_of_run_mapM {f : α → Walk β} {xs : List α} {e : ArenaError}
    (h : (xs.mapM f).run = some (.error e)) :
    ∃ before x later, xs = before ++ x :: later ∧
      (∀ y ∈ before, ∃ z, (f y).run = some (.ok z)) ∧ (f x).run = some (.error e) := by
  induction xs with
  | nil => cases h
  | cons x xs ih =>
    rw [List.mapM_cons] at h
    obtain ⟨e', he, heq⟩ | ⟨z, hz, hrest⟩ := run_bind_eq_some.mp h
    · cases heq
      exact ⟨[], x, xs, rfl, fun y hy => absurd hy List.not_mem_nil, he⟩
    obtain ⟨e', he, heq⟩ | ⟨zs, -, hpure⟩ := run_bind_eq_some.mp hrest
    · cases heq
      obtain ⟨before, y, later, rfl, hbefore, hy⟩ := ih he
      exact ⟨x :: before, y, later, rfl, List.forall_mem_cons.mpr ⟨⟨z, hz⟩, hbefore⟩, hy⟩
    · cases hpure

theorem run_allM_cons_eq_true {f : α → Walk Bool} {x : α} {xs : List α} :
    ((x :: xs).allM f).run = some (.ok true) ↔
      (f x).run = some (.ok true) ∧ (xs.allM f).run = some (.ok true) := by
  rw [List.allM_cons]
  constructor
  · intro h
    obtain ⟨e, _, he⟩ | ⟨b, hb, h⟩ := run_bind_eq_some.mp h
    · contradiction
    cases b with
    | false => cases h
    | true => exact ⟨hb, h⟩
  · rintro ⟨hx, hxs⟩
    rw [run_bind_of_ok hx]
    exact hxs

theorem run_allM_eq_true {f : α → Walk Bool} {xs : List α} :
    (xs.allM f).run = some (.ok true) ↔ ∀ x ∈ xs, (f x).run = some (.ok true) := by
  induction xs with
  | nil => simp
  | cons x xs ih => rw [run_allM_cons_eq_true, ih, List.forall_mem_cons]

theorem run_allM_of_ok {f g : α → Walk Bool} {xs : List α} {r : Bool}
    (hfg : ∀ x ∈ xs, ∀ r, (f x).run = some (.ok r) → (g x).run = some (.ok r))
    (hf : (xs.allM f).run = some (.ok r)) : (xs.allM g).run = some (.ok r) := by
  induction xs with
  | nil => exact hf
  | cons x xs ih =>
    rw [List.forall_mem_cons] at hfg
    rw [List.allM_cons] at hf ⊢
    obtain ⟨e, -, he⟩ | ⟨b, hb, hrest⟩ := run_bind_eq_some.mp hf
    · contradiction
    rw [run_bind_of_ok (hfg.1 b hb)]
    cases b with
    | false => exact hrest
    | true => exact ih hfg.2 hrest

/-! ## the order -/

/-- Whatever the walk `p` ends with, the walk `q` ends with too. -/
def Within (p q : Walk α) : Prop := ∀ outcome, p.run = some outcome → q.run = some outcome

theorem Within.refl (p : Walk α) : p.Within p := fun _ h => h

theorem Within.trans {p q r : Walk α} (hpq : p.Within q) (hqr : q.Within r) : p.Within r :=
  fun outcome h => hqr outcome (hpq outcome h)

theorem endless_within (q : Walk α) : (endless : Walk α).Within q := by
  intro outcome h
  rw [run_endless] at h
  contradiction

theorem Within.run_eq {p q : Walk α} (hpq : p.Within q) (hp : p.run ≠ none) : q.run = p.run := by
  obtain ⟨outcome, h⟩ := Option.ne_none_iff_exists'.mp hp
  rw [h, hpq outcome h]

/-- Where the walk that goes further ends no more often, the two are the same. -/
theorem Within.symm_of_ends {p q : Walk α} (hpq : p.Within q)
    (h : q.run ≠ none → p.run ≠ none) : q.Within p := by
  intro outcome hq
  have hp : p.run ≠ none := h (by rw [hq]; exact Option.some_ne_none outcome)
  rw [← hpq.run_eq hp, hq]

theorem Within.bind {p q : Walk α} {f g : α → Walk β} (hpq : p.Within q)
    (hfg : ∀ a, p.run = some (.ok a) → (f a).Within (g a)) : (p >>= f).Within (q >>= g) := by
  intro outcome h
  rcases run_bind_eq_some.mp h with ⟨e, he, rfl⟩ | ⟨a, ha, hf⟩
  · exact run_bind_of_error (hpq _ he) g
  · rw [run_bind_of_ok (hpq _ ha) g]
    exact hfg a ha outcome hf

theorem Within.map {p q : Walk α} (hpq : p.Within q) (f : α → β) : (f <$> p).Within (f <$> q) := by
  rw [map_eq_pure_bind, map_eq_pure_bind]
  exact hpq.bind fun a _ => .refl (pure (f a))

variable {xs : List α}

theorem Within.mapM {f g : α → Walk β} (h : ∀ x ∈ xs, (f x).Within (g x)) :
    (xs.mapM f).Within (xs.mapM g) := by
  induction xs with
  | nil => exact .refl _
  | cons x xs ih =>
    rw [List.mapM_cons, List.mapM_cons]
    have ih' := ih fun y hy => h y (List.mem_cons_of_mem x hy)
    exact (h x List.mem_cons_self).bind fun y _ => ih'.bind fun ys _ => .refl (pure (y :: ys))

theorem Within.allM {f g : α → Walk Bool} (h : ∀ x ∈ xs, (f x).Within (g x)) :
    (xs.allM f).Within (xs.allM g) := by
  induction xs with
  | nil => exact .refl _
  | cons x xs ih =>
    rw [List.allM_cons, List.allM_cons]
    refine (h x List.mem_cons_self).bind fun b _ => ?_
    cases b with
    | false => exact .refl _
    | true => exact ih fun y hy => h y (List.mem_cons_of_mem x hy)

end Walk

end TaggedWords
