import TaggedWords.Proofs.Tree.Reading
import TaggedWords.Proofs.Tree.Unfolding
import TaggedWords.Proofs.Walk.Failing
import TaggedWords.Proofs.Walk.Nesting

/-!
# Equality and texts

Comparing two words and rendering them are two independent walks.  They agree on what a value is:
words are equal if they unfold to the same tree, and trees are the same if their texts are.

Words that compare equal have the same tree even where it is cut off by a record outside the arena
or has no end: each pair of elements was compared, or was the same word.

* `Walk.Decides`               a walk ends and tells whether a proposition holds;
* `equalWithin_decides`        comparing decides whether the trees are the same;
* `unfoldWithin_eq_of_equal`   words that compare equal unfold in the same way under every bound;
* `equalWord_agrees_with_render`   the two walks agree.
-/

namespace TaggedWords

namespace Walk

variable {α β : Type} {p q : Prop}

/-- The walk ends, and tells whether the proposition holds. -/
def Decides (walk : Walk Bool) (p : Prop) : Prop :=
  ∃ r, walk.run = some (.ok r) ∧ (r = true ↔ p)

theorem decides_of_true {walk : Walk Bool} (h : walk.run = some (.ok true)) (hp : p) :
    walk.Decides p :=
  ⟨true, h, iff_of_true rfl hp⟩

theorem decides_of_false {walk : Walk Bool} (h : walk.run = some (.ok false)) (hp : ¬ p) :
    walk.Decides p :=
  ⟨false, h, iff_of_false Bool.false_ne_true hp⟩

theorem Decides.cons {f : α → Walk Bool} {x : α} {xs : List α} (hx : (f x).Decides p)
    (hxs : (xs.allM f).Decides q) : ((x :: xs).allM f).Decides (p ∧ q) := by
  obtain ⟨r, hr, hp⟩ := hx
  rw [List.allM_cons, Decides, run_bind_of_ok hr]
  cases r with
  | false =>
    refine decides_of_false rfl fun h => ?_
    exact Bool.false_ne_true (hp.mpr h.1)
  | true =>
    obtain ⟨r, hr, hq⟩ := hxs
    refine ⟨r, hr, ?_⟩
    rw [hq]
    exact (and_iff_right (hp.mp rfl)).symm

theorem decides_allM_zip {f : α → Walk β} {g : α → α → Walk Bool}
    (h : ∀ x y t u, (f x).run = some (.ok t) → (f y).run = some (.ok u) →
      (g x y).Decides (t = u)) {xs : List α} :
    ∀ {ys : List α} {ts us : List β}, xs.length = ys.length →
      (xs.mapM f).run = some (.ok ts) → (ys.mapM f).run = some (.ok us) →
      ((xs.zip ys).allM fun p => g p.1 p.2).Decides (ts = us) := by
  induction xs with
  | nil =>
    intro ys ts us hlen hts hus
    rw [List.length_nil] at hlen
    rw [List.eq_nil_of_length_eq_zero hlen.symm] at hus ⊢
    cases hts
    cases hus
    exact decides_of_true rfl rfl
  | cons x xs ih =>
    intro ys ts us hlen hts hus
    cases ys with
    | nil => contradiction
    | cons y ys =>
      obtain ⟨t, ts', ht, hts', rfl⟩ := run_mapM_cons_eq_ok.mp hts
      obtain ⟨u, us', hu, hus', rfl⟩ := run_mapM_cons_eq_ok.mp hus
      rw [List.zip_cons_cons, List.cons.injEq]
      have hhead : (g x y).Decides (t = u) := h x y t u ht hu
      have htail := ih (Nat.succ.inj hlen) hts' hus'
      exact Decides.cons (f := fun p => g p.1 p.2) (x := (x, y)) hhead htail

theorem mapM_eq_of_zip {f : α → Walk β} {xs : List α} :
    ∀ {ys : List α}, xs.length = ys.length → (∀ p ∈ xs.zip ys, f p.1 = f p.2) →
      xs.mapM f = ys.mapM f := by
  induction xs with
  | nil =>
    intro ys hlen _
    rw [List.length_nil] at hlen
    rw [List.eq_nil_of_length_eq_zero hlen.symm]
  | cons x xs ih =>
    intro ys hlen h
    cases ys with
    | nil => contradiction
    | cons y ys =>
      rw [List.zip_cons_cons, List.forall_mem_cons] at h
      have hhead : f x = f y := h.1
      rw [List.mapM_cons, List.mapM_cons, hhead, ih (Nat.succ.inj hlen) h.2]

end Walk

namespace Arena

variable {arena : Arena} {a b w : Word} {bound : Nat} {t u : Tree}

/-! ## words with one tree -/

theorem eq_atom_of_unfoldWithin {x : Atom}
    (h : (arena.unfoldWithin (bound + 1) w).run = some (.ok t))
    (value : Value.decode w = .atom x) : t = .atom x := by
  rw [run_unfoldWithin_of_atom (layer_of_atom value)] at h
  cases h
  rfl

theorem exists_node_of_unfoldWithin {r : Reference}
    (h : (arena.unfoldWithin (bound + 1) w).run = some (.ok t))
    (value : Value.decode w = .tuple r) :
    ∃ elements ts, arena.record r = .ok elements ∧
      (elements.mapM (arena.unfoldWithin bound)).run = some (.ok ts) ∧ t = .node ts := by
  cases hr : arena.record r with
  | error e =>
    rw [run_unfoldWithin_of_error (layer_of_dangling value hr)] at h
    cases h
  | ok elements =>
    rw [unfoldWithin_of_tuple (layer_of_record value hr)] at h
    obtain ⟨ts, hts, rfl⟩ := Walk.run_map_eq_ok.mp h
    exact ⟨elements, ts, rfl, hts, rfl⟩

theorem eq_of_unfoldWithin_atom {x : Atom}
    (ha : (arena.unfoldWithin (bound + 1) a).run = some (.ok (.atom x)))
    (hb : (arena.unfoldWithin (bound + 1) b).run = some (.ok (.atom x))) : a = b := by
  have hword : ∀ {w : Word}, (arena.unfoldWithin (bound + 1) w).run = some (.ok (.atom x)) →
      Value.decode w = .atom x := by
    intro w h
    cases hw : Value.decode w with
    | atom y =>
      cases eq_atom_of_unfoldWithin h hw
      rfl
    | tuple r =>
      obtain ⟨_, _, _, _, hnode⟩ := exists_node_of_unfoldWithin h hw
      contradiction
  exact Value.decode_inj.mp ((hword ha).trans (hword hb).symm)

/-- **Comparing decides whether two trees are the same**, once both words unfold. -/
theorem equalWithin_decides (ha : (arena.unfoldWithin bound a).run = some (.ok t))
    (hb : (arena.unfoldWithin bound b).run = some (.ok u)) :
    (arena.equalWithin bound a b).Decides (t = u) := by
  induction bound generalizing a b t u with
  | zero => contradiction
  | succ bound ih =>
    generalize hc : arena.compare a b = comparison
    have hcompared := arena.compared a b
    rw [hc] at hcompared
    cases hcompared with
    | identical same =>
      rw [same, hb] at ha
      cases ha
      exact Walk.decides_of_true (run_equalWithin_of_same hc) rfl
    | atomLeft ne left =>
      refine Walk.decides_of_false (run_equalWithin_of_different hc) fun htu => ?_
      -- only one word has the tree of an atom, and the words differ
      cases eq_atom_of_unfoldWithin ha left
      rw [← htu] at hb
      exact ne (eq_of_unfoldWithin_atom ha hb)
    | atomRight ne left right =>
      refine Walk.decides_of_false (run_equalWithin_of_different hc) fun htu => ?_
      cases eq_atom_of_unfoldWithin hb right
      rw [htu] at ha
      exact ne (eq_of_unfoldWithin_atom ha hb)
    | danglingLeft ne left right missing =>
      -- a word whose record is outside the arena does not unfold
      obtain ⟨_, _, found, _, _⟩ := exists_node_of_unfoldWithin ha left
      rw [missing] at found
      contradiction
    | danglingRight ne left right foundLeft missing =>
      obtain ⟨_, _, found, _, _⟩ := exists_node_of_unfoldWithin hb right
      rw [missing] at found
      contradiction
    | lengths ne left right foundLeft foundRight length =>
      obtain ⟨xs, ts, hxs, hts, rfl⟩ := exists_node_of_unfoldWithin ha left
      obtain ⟨ys, us, hys, hus, rfl⟩ := exists_node_of_unfoldWithin hb right
      cases foundLeft.symm.trans hxs
      cases foundRight.symm.trans hys
      refine Walk.decides_of_false (run_equalWithin_of_different hc) fun htu => ?_
      injection htu with htu
      rw [← Walk.length_of_mapM hts, ← Walk.length_of_mapM hus, htu] at length
      exact length rfl
    | elements ne left right foundLeft foundRight length =>
      obtain ⟨xs, ts, hxs, hts, rfl⟩ := exists_node_of_unfoldWithin ha left
      obtain ⟨ys, us, hys, hus, rfl⟩ := exists_node_of_unfoldWithin hb right
      cases foundLeft.symm.trans hxs
      cases foundRight.symm.trans hys
      rw [equalWithin_of_elementwise hc, Tree.node.injEq]
      have hpairs : ∀ x y t u, (arena.unfoldWithin bound x).run = some (.ok t) →
          (arena.unfoldWithin bound y).run = some (.ok u) →
          (arena.equalWithin bound x y).Decides (t = u) := fun x y t u ht hu => ih ht hu
      exact Walk.decides_allM_zip hpairs length hts hus

/-! ## words that compare equal -/

/-- **Words that compare equal unfold in the same way**, whether into a tree, up to a record
outside the arena, or without an end. -/
theorem unfoldWithin_eq_of_equal (h : (arena.equalWithin bound a b).run = some (.ok true)) :
    ∀ depth, arena.unfoldWithin depth a = arena.unfoldWithin depth b := by
  induction bound generalizing a b with
  | zero => contradiction
  | succ bound ih =>
    generalize hc : arena.compare a b = comparison
    have hcompared := arena.compared a b
    rw [hc] at hcompared
    cases hcompared with
    | identical same =>
      intro depth
      rw [same]
    | atomLeft | atomRight | lengths =>
      rw [run_equalWithin_of_different hc] at h
      cases h
    | danglingLeft | danglingRight =>
      rw [run_equalWithin_of_error hc] at h
      cases h
    | elements ne left right foundLeft foundRight length =>
      rw [equalWithin_of_elementwise hc, Walk.run_allM_eq_true] at h
      intro depth
      cases depth with
      | zero => rfl
      | succ depth =>
        have hpairs := fun p hp => ih (h p hp) depth
        rw [unfoldWithin_of_tuple (layer_of_record left foundLeft),
          unfoldWithin_of_tuple (layer_of_record right foundRight),
          Walk.mapM_eq_of_zip length hpairs]

theorem renderWithin_eq_of_equal (h : (arena.equalWithin bound a b).run = some (.ok true))
    (depth : Nat) : arena.renderWithin depth a = arena.renderWithin depth b := by
  rw [renderWithin_eq_text_unfoldWithin, renderWithin_eq_text_unfoldWithin,
    unfoldWithin_eq_of_equal h depth]

/-! ## the two walks -/

theorem equal_decides_text {s t : String} (hs : (arena.render a).run = some (.ok s))
    (ht : (arena.render b).run = some (.ok t)) : (arena.equal a b).Decides (s = t) := by
  obtain ⟨x, hx, rfl⟩ := run_renderWithin_eq_ok.mp hs
  obtain ⟨y, hy, rfl⟩ := run_renderWithin_eq_ok.mp ht
  obtain ⟨r, hr, hxy⟩ := equalWithin_decides hx hy
  refine ⟨r, equal_run_eq_some_iff.mpr ⟨_, hr⟩, hxy.trans ?_⟩
  constructor
  · intro h
    rw [h]
  · exact Tree.text_injective

theorem render_outcomes (arena : Arena) (w : Word) :
    (∃ s, (arena.render w).run = some (.ok s)) ∨
      (∃ offset, (arena.render w).run = some (.error (.outOfBounds offset arena.size))) ∨
      ∀ depth, (arena.renderWithin depth w).run = none := by
  cases h : (arena.render w).run with
  | none =>
    refine .inr (.inr fun depth => ?_)
    cases hd : (arena.renderWithin depth w).run with
    | none => rfl
    | some outcome =>
      rw [render_run_eq_some_iff.mpr ⟨depth, hd⟩] at h
      contradiction
  | some outcome =>
    cases outcome with
    | ok s => exact .inl ⟨s, rfl⟩
    | error e =>
      obtain ⟨offset, rfl⟩ := arena.renderWithin_failsOnly _ w e h
      exact .inr (.inl ⟨offset, rfl⟩)

/-- **Equality and texts agree about what a value is.**  Records may share words or refer to each
other in circles. -/
theorem equalWord_agrees_with_render (arena : Arena) (a b : Word) :
    (∀ s t, (arena.render a).run = some (.ok s) → (arena.render b).run = some (.ok t) →
      (arena.equalWord a b).run = some (.ok (if s = t then trueWord else falseWord))) ∧
    ((arena.equalWord a b).run = some (.ok trueWord) →
      (∃ s, (arena.render a).run = some (.ok s) ∧ (arena.render b).run = some (.ok s)) ∨
      (∃ offset, (arena.render a).run = some (.error (.outOfBounds offset arena.size)) ∧
        (arena.render b).run = some (.error (.outOfBounds offset arena.size))) ∨
      ∀ depth, (arena.renderWithin depth a).run = none ∧
        (arena.renderWithin depth b).run = none) := by
  constructor
  · intro s t hs ht
    obtain ⟨r, hr, hst⟩ := equal_decides_text hs ht
    rw [equalWord, Walk.run_map, hr]
    cases r with
    | true =>
      rw [if_pos (hst.mp rfl)]
      rfl
    | false =>
      rw [if_neg fun h => Bool.false_ne_true (hst.mpr h)]
      rfl
  · intro h
    obtain ⟨r, hr, htrue⟩ := Walk.run_map_eq_ok.mp h
    rw [← Word.ofBool_true, Word.ofBool_inj] at htrue
    rw [htrue] at hr
    have hsame := renderWithin_eq_of_equal hr
    have hrender : arena.render b = arena.render a := (hsame arena.renderBound).symm
    rw [hrender]
    rcases arena.render_outcomes a with ⟨s, hs⟩ | ⟨offset, he⟩ | hnone
    · exact .inl ⟨s, hs, hs⟩
    · exact .inr (.inl ⟨offset, he, he⟩)
    · refine .inr (.inr fun depth => ⟨hnone depth, ?_⟩)
      rw [← hsame depth, hnone depth]

/-- A record that holds itself compares equal to a copy, and neither is ever rendered. -/
theorem equal_copies_and_circles :
    ((⟨#[1, 2, 1, 2]⟩ : Arena).equalWord 1 9).run = some (.ok trueWord) ∧
      ∀ depth, ((⟨#[1, 1, 1, 1]⟩ : Arena).renderWithin depth 1).run = none ∧
        ((⟨#[1, 1, 1, 1]⟩ : Arena).renderWithin depth 9).run = none := by
  constructor
  · exact (equalWord_agrees_with_render ⟨#[1, 2, 1, 2]⟩ 1 9).1 "(1)" "(1)" (by decide) (by decide)
  · have hnone : ((⟨#[1, 1, 1, 1]⟩ : Arena).render 1).run = none := by decide
    have hagree := (equalWord_agrees_with_render ⟨#[1, 1, 1, 1]⟩ 1 9).2 (by decide)
    rcases hagree with ⟨s, hs, _⟩ | ⟨offset, he, _⟩ | hends
    · rw [hnone] at hs
      contradiction
    · rw [hnone] at he
      contradiction
    · exact hends

end Arena

end TaggedWords
