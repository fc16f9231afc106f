import Mathlib.Data.List.Forall2
import TaggedWords.Proofs.Tree.Equality
import TaggedWords.Proofs.Walk.EqualLoop
import TaggedWords.Proofs.Walk.RenderLoop

/-!
# What words stand for

`UnfoldsTo` says which tree a word stands for, by recursion on the tree: there is no bound in it,
and it asks nothing of the arena but what the records have for elements.  So it can be told from a
list of records too, and what is told from fewer records still holds where there are more.

A word that stands for a tree has the text of the tree, and two such words compare equal if the
trees are the same.

* `Records`                 the elements of the records at references;
* `UnfoldsTo`               the tree that a word stands for;
* `UnfoldsTo.mono`          more records take nothing away;
* `UnfoldsTo.unique`        a word stands for one tree in an arena;
* `run_render_eq_ok`        rendering succeeds where a word stands for a tree, with its text;
* `Answers`                 what both ways of rendering and comparing answer;
* `answers_of_unfoldsTo`    comparing such words tells whether their trees are the same.
-/

namespace TaggedWords

/-- Which elements the records at references have. -/
abbrev Records := Reference → List Word → Prop

mutual

/-- Whether a word stands for a tree, if its references lead to these records. -/
def UnfoldsTo (records : Records) : Word → Tree → Prop
  | w, .atom a => Value.decode w = .atom a
  | w, .node children =>
    ∃ r elements, Value.decode w = .tuple r ∧ records r elements ∧
      UnfoldAllTo records elements children

def UnfoldAllTo (records : Records) : List Word → List Tree → Prop
  | [], [] => True
  | w :: ws, t :: ts => UnfoldsTo records w t ∧ UnfoldAllTo records ws ts
  | _, _ => False

end

section
variable {α β : Type} {R S : α → β → Prop} {xs : List α} {ys : List β}

theorem forall₂_of_mem (hxs : List.Forall₂ R xs ys) (h : ∀ x, ∀ y ∈ ys, R x y → S x y) :
    List.Forall₂ S xs ys := by
  induction hxs with
  | nil => exact .nil
  | @cons x y xs ys hxy _ ih =>
    have hhead : S x y := h x y List.mem_cons_self hxy
    exact .cons hhead (ih fun x' y' hy' => h x' y' (List.mem_cons_of_mem y hy'))

theorem exists_of_forall₂ (hxs : List.Forall₂ R xs ys) {y : β} (hy : y ∈ ys) : ∃ x, R x y := by
  induction hxs with
  | nil => contradiction
  | @cons x _ _ _ hxy _ ih =>
    rcases List.mem_cons.mp hy with rfl | hy
    · exact ⟨x, hxy⟩
    · exact ih hy

end

section
variable {records records' : Records} {w : Word} {t : Tree}

theorem unfoldAllTo_iff {ws : List Word} {ts : List Tree} :
    UnfoldAllTo records ws ts ↔ List.Forall₂ (UnfoldsTo records) ws ts := by
  induction ws generalizing ts with
  | nil => cases ts <;> simp [UnfoldAllTo]
  | cons w ws ih => cases ts <;> simp [UnfoldAllTo, ih]

theorem unfoldsTo_atom {a : Atom} : UnfoldsTo records w (.atom a) ↔ Value.decode w = .atom a := by
  rw [UnfoldsTo]

theorem unfoldsTo_node {children : List Tree} :
    UnfoldsTo records w (.node children) ↔
      ∃ r elements, Value.decode w = .tuple r ∧ records r elements ∧
        List.Forall₂ (UnfoldsTo records) elements children := by
  rw [UnfoldsTo]
  simp only [unfoldAllTo_iff]

theorem UnfoldsTo.mono (hsub : ∀ r elements, records r elements → records' r elements)
    (h : UnfoldsTo records w t) : UnfoldsTo records' w t := by
  induction t generalizing w with
  | atom a =>
    rw [unfoldsTo_atom] at h ⊢
    exact h
  | node children ih =>
    obtain ⟨r, elements, hw, hr, hall⟩ := unfoldsTo_node.mp h
    have hall' : List.Forall₂ (UnfoldsTo records') elements children :=
      forall₂_of_mem hall fun x t ht hx => ih t ht hx
    exact unfoldsTo_node.mpr ⟨r, elements, hw, hsub r elements hr, hall'⟩

end

/-! ## walks that succeed on every element -/

namespace Walk

variable {α β : Type} {xs : List α} {ys : List β}

theorem forall₂_of_run_mapM {f : α → Walk β} (h : (xs.mapM f).run = some (.ok ys)) :
    List.Forall₂ (fun x y => (f x).run = some (.ok y)) xs ys := by
  induction xs generalizing ys with
  | nil =>
    cases h
    exact .nil
  | cons x xs ih =>
    obtain ⟨y, ys', hy, hys, rfl⟩ := run_mapM_cons_eq_ok.mp h
    exact .cons hy (ih hys)

theorem exists_bound_mapM {f : Nat → α → Walk β} (succ : ∀ n x, (f n x).Within (f (n + 1) x))
    (h : List.Forall₂ (fun x y => ∃ n, (f n x).run = some (.ok y)) xs ys) :
    ∃ n, (xs.mapM (f n)).run = some (.ok ys) := by
  induction h with
  | nil => exact ⟨0, rfl⟩
  | @cons x y xs ys hxy _ ih =>
    obtain ⟨n, hn⟩ := hxy
    obtain ⟨m, hm⟩ := ih
    have hhead := within_of_le succ (Nat.le_max_left n m) x _ hn
    have htail : (xs.mapM (f m)).Within (xs.mapM (f (max n m))) :=
      Within.mapM fun z _ => within_of_le succ (Nat.le_max_right n m) z
    exact ⟨max n m, run_mapM_cons_eq_ok.mpr ⟨y, ys, hhead, htail _ hm, rfl⟩⟩

end Walk

namespace Arena

variable {arena : Arena} {a b w : Word} {t u : Tree} {bound : Nat}

def records (arena : Arena) : Records := fun r elements => arena.record r = .ok elements

/-! ## unfolding under a bound -/

theorem unfoldWithin_succ (arena : Arena) (bound : Nat) (w : Word) :
    (arena.unfoldWithin bound w).Within (arena.unfoldWithin (bound + 1) w) := by
  induction bound generalizing w with
  | zero => exact Walk.endless_within _
  | succ bound ih =>
    rw [unfoldWithin, unfoldWithin]
    refine (Walk.Within.refl _).bind fun layer _ => ?_
    cases layer with
    | atom a => exact .refl _
    | tuple elements =>
      exact (Walk.Within.mapM fun x _ => ih x).bind fun texts _ => .refl _

theorem unfoldsTo_of_unfoldWithin (h : (arena.unfoldWithin bound w).run = some (.ok t)) :
    UnfoldsTo arena.records w t := by
  induction bound generalizing w t with
  | zero => contradiction
  | succ bound ih =>
    cases hw : Value.decode w with
    | atom a =>
      rw [eq_atom_of_unfoldWithin h hw]
      exact unfoldsTo_atom.mpr hw
    | tuple r =>
      obtain ⟨elements, ts, hr, hts, rfl⟩ := exists_node_of_unfoldWithin h hw
      have hall : List.Forall₂ (UnfoldsTo arena.records) elements ts :=
        (Walk.forall₂_of_run_mapM hts).imp fun x t hx => ih hx
      exact unfoldsTo_node.mpr ⟨r, elements, hw, hr, hall⟩

theorem exists_bound_of_unfoldsTo (h : UnfoldsTo arena.records w t) :
    ∃ bound, (arena.unfoldWithin bound w).run = some (.ok t) := by
  induction t generalizing w with
  | atom a => exact ⟨1, run_unfoldWithin_of_atom (layer_of_atom (unfoldsTo_atom.mp h))⟩
  | node children ih =>
    obtain ⟨r, elements, hw, hr, hall⟩ := unfoldsTo_node.mp h
    obtain ⟨bound, hbound⟩ := Walk.exists_bound_mapM arena.unfoldWithin_succ
      (forall₂_of_mem hall fun x t ht hx => ih t ht hx)
    refine ⟨bound + 1, ?_⟩
    rw [unfoldWithin_of_tuple (layer_of_record hw hr), Walk.run_map, hbound]
    rfl

/-! ## rendering and comparing what stands for a tree -/

theorem unfoldsTo_unique (ht : UnfoldsTo arena.records w t) (hu : UnfoldsTo arena.records w u) :
    t = u := by
  obtain ⟨n, hn⟩ := exists_bound_of_unfoldsTo ht
  obtain ⟨m, hm⟩ := exists_bound_of_unfoldsTo hu
  have heq := Walk.outcome_unique arena.unfoldWithin_succ hn hm
  injection heq

/-- **Rendering succeeds exactly where a word stands for a tree**, and gives the tree's text. -/
theorem run_render_eq_ok {s : String} :
    (arena.render w).run = some (.ok s) ↔ ∃ t, UnfoldsTo arena.records w t ∧ t.text = s := by
  rw [render_run_eq_some_iff]
  constructor
  · rintro ⟨bound, h⟩
    obtain ⟨t, ht, hs⟩ := run_renderWithin_eq_ok.mp h
    exact ⟨t, unfoldsTo_of_unfoldWithin ht, hs⟩
  · rintro ⟨t, ht, hs⟩
    obtain ⟨bound, h⟩ := exists_bound_of_unfoldsTo ht
    exact ⟨bound, run_renderWithin_eq_ok.mpr ⟨t, h, hs⟩⟩

theorem equal_decides (ha : UnfoldsTo arena.records a t) (hb : UnfoldsTo arena.records b u) :
    (arena.equal a b).Decides (t = u) := by
  obtain ⟨n, hn⟩ := exists_bound_of_unfoldsTo ha
  obtain ⟨m, hm⟩ := exists_bound_of_unfoldsTo hb
  have hn' := Walk.within_of_le arena.unfoldWithin_succ (Nat.le_max_left n m) a _ hn
  have hm' := Walk.within_of_le arena.unfoldWithin_succ (Nat.le_max_right n m) b _ hm
  obtain ⟨r, hr, htu⟩ := equalWithin_decides hn' hm'
  exact ⟨r, equal_run_eq_some_iff.mpr ⟨_, hr⟩, htu⟩

open Classical in
/-- **Comparing two words that stand for trees tells whether the trees are the same.** -/
theorem run_equalWord (ha : UnfoldsTo arena.records a t) (hb : UnfoldsTo arena.records b u) :
    (arena.equalWord a b).run = some (.ok (.ofBool (decide (t = u)))) := by
  obtain ⟨r, hr, htu⟩ := equal_decides ha hb
  have hverdict : r = decide (t = u) := Bool.eq_iff_iff.mpr (htu.trans decide_eq_true_iff.symm)
  rw [equalWord, Walk.run_map, hr, hverdict]
  rfl

/-- Both ways of rendering the word `a`, and both of comparing it with `b`, end with these
answers. -/
structure Answers (arena : Arena) (a b : Word) (text : String) (verdict : Bool) : Prop where
  render : (arena.render a).run = some (.ok text)
  renderByStack : (arena.renderByStack a).run = some (.ok text)
  equalWord : (arena.equalWord a b).run = some (.ok (.ofBool verdict))
  equalWordByStack : (arena.equalWordByStack a b).run = some (.ok (.ofBool verdict))

open Classical in
theorem answers_of_unfoldsTo (ha : UnfoldsTo arena.records a t) (hb : UnfoldsTo arena.records b u) :
    arena.Answers a b t.text (decide (t = u)) := by
  have hrender : (arena.render a).run = some (.ok t.text) := run_render_eq_ok.mpr ⟨t, ha, rfl⟩
  have hequal := run_equalWord ha hb
  refine ⟨hrender, ?_, hequal, ?_⟩
  · rw [renderByStack_eq_render]
    exact hrender
  · rw [equalWordByStack, equalByStack_eq_equal]
    exact hequal

end Arena

end TaggedWords
