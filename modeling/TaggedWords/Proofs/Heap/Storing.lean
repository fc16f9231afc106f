import TaggedWords.Proofs.Heap.Growth
import TaggedWords.Proofs.Tree.Grammar

/-!
# Storing trees in a heap

A tree is stored bottom up and from left to right: all children of a node first, and then the node,
as a record of the words that the children got.  How far the heap is filled depends on nothing but
how many children the nodes have, in the order in which they are stored.

* `Tree.arities`         the numbers of children of a tree's nodes, in that order;
* `Heap.extent`          the words that records with so many elements take up in an empty heap;
* `Heap.advance`         the index behind them, in a heap that is filled up to some index;
* `Heap.store`           stores a tree and gives its word;
* `Heap.Stores`          what a computation needs, how far it fills the heap, and what it gives;
* `Stores.bind`          one computation after another;
* `Stores.frame`         what was known of the records stays known;
* `stores_store`         storing a tree gives a word that stands for it, if there is room;
* `store_trees`          two trees that are stored in one heap are rendered and compared.
-/

namespace TaggedWords

namespace Tree

mutual

def arities : Tree → List Nat
  | .atom _ => []
  | .node children => aritiesAll children ++ [children.length]

def aritiesAll : List Tree → List Nat
  | [] => []
  | t :: ts => arities t ++ aritiesAll ts

end

end Tree

namespace Heap

/-! ## the words that records take up -/

/-- The words that records with so many elements take up, padding words between them included. -/
def extent : List Nat → Nat
  | [] => 0
  | [k] => k + 1
  | k :: l :: ks => roundUp (k + 1) + extent (l :: ks)

def advance (next : Nat) (ks : List Nat) : Nat :=
  ks.foldl (fun next k => roundUp next + (k + 1)) next

theorem advance_cons (next k : Nat) (ks : List Nat) :
    advance next (k :: ks) = advance (roundUp next + (k + 1)) ks := rfl

theorem advance_append (next : Nat) (ks ls : List Nat) :
    advance next (ks ++ ls) = advance (advance next ks) ls := List.foldl_append

theorem le_advance (next : Nat) (ks : List Nat) : next ≤ advance next ks := by
  induction ks generalizing next with
  | nil => exact Nat.le_refl _
  | cons k ks ih =>
    have hstep := ih (roundUp next + (k + 1))
    rw [advance_cons]
    unfold roundUp at hstep ⊢
    omega

theorem roundUp_add_of_even {i : Nat} (hi : i % 2 = 0) (j : Nat) :
    roundUp (i + j) = i + roundUp j := by
  unfold roundUp
  omega

theorem advance_cons_eq_extent (next k : Nat) (ks : List Nat) :
    advance next (k :: ks) = roundUp next + extent (k :: ks) := by
  induction ks generalizing next k with
  | nil => rfl
  | cons l ks ih =>
    rw [advance_cons, ih, roundUp_add_of_even (roundUp_even next), extent, Nat.add_assoc]

theorem advance_zero (ks : List Nat) : advance 0 ks = extent ks := by
  cases ks with
  | nil => rfl
  | cons k ks => rw [advance_cons_eq_extent, roundUp, Nat.zero_add]

/-! ## storing -/

abbrev Storing (α : Type) := ExceptT ArenaError (StateM Heap) α

def Storing.on {α : Type} (m : Storing α) (heap : Heap) : Except ArenaError α × Heap := m.run heap

def place (elements : List Word) : Storing Word := ExceptT.mk fun heap => heap.alloc elements

mutual

def store : Tree → Storing Word
  | .atom a => pure a.encode
  | .node children => do
    let elements ← storeAll children
    place elements

def storeAll : List Tree → Storing (List Word)
  | [] => pure []
  | t :: ts => do
    let w ← store t
    let ws ← storeAll ts
    pure (w :: ws)

end

variable {size : Nat} {heap : Heap} {placed : List Placement} {ks ls : List Nat} {α β : Type}

structure Filled (size : Nat) (heap : Heap) (placed : List Placement) : Prop where
  holds : heap.Holds placed
  size_eq : heap.arena.size = size
  next_le : heap.next ≤ size

/-- How computations that allocate records end: with a result that is as meant if there is room for
all the records, and else with an error. -/
inductive Outcome (size : Nat) (heap : Heap) (placed : List Placement) (ks : List Nat)
    (means : List Placement → α → Prop) : Except ArenaError α × Heap → Prop where
  | stored {a : α} {later : Heap} {more : List Placement} (room : advance heap.next ks ≤ size)
    (next_eq : later.next = advance heap.next ks) (filled : Filled size later (placed ++ more))
    (meant : means (placed ++ more) a) : Outcome size heap placed ks means (.ok a, later)
  | refused {e : ArenaError} {later : Heap} (full : size < advance heap.next ks) :
    Outcome size heap placed ks means (.error e, later)

/-- In every heap whose records are as needed, the computation allocates records with so many
elements and then has a result that is as meant. -/
def Stores (size : Nat) (ks : List Nat) (needs : List Placement → Prop) (m : Storing α)
    (means : List Placement → α → Prop) : Prop :=
  ∀ heap placed, Filled size heap placed → needs placed →
    Outcome size heap placed ks means (m.on heap)

section
variable {needs : List Placement → Prop} {means : List Placement → α → Prop} {m : Storing α}

theorem Storing.on_bind_of_ok {f : α → Storing β} {a : α} {later : Heap}
    (h : m.on heap = (.ok a, later)) : (m >>= f).on heap = (f a).on later := by
  show ExceptT.bindCont f (m.on heap).1 (m.on heap).2 = _
  rw [h]
  rfl

theorem Storing.on_bind_of_error {f : α → Storing β} {e : ArenaError} {later : Heap}
    (h : m.on heap = (.error e, later)) : (m >>= f).on heap = (.error e, later) := by
  show ExceptT.bindCont f (m.on heap).1 (m.on heap).2 = _
  rw [h]
  rfl

theorem Outcome.succeeds_iff {r : Except ArenaError α × Heap}
    (h : Outcome size heap placed ks means r) :
    (∃ a, r.1 = .ok a) ↔ advance heap.next ks ≤ size := by
  cases h with
  | @stored a _ _ room => exact iff_of_true ⟨a, rfl⟩ room
  | refused full =>
    refine iff_of_false ?_ (Nat.not_le.mpr full)
    rintro ⟨a, ha⟩
    cases ha

theorem Outcome.exists_of_ok {a : α} {later : Heap}
    (h : Outcome size heap placed ks means (.ok a, later)) :
    ∃ more, later.next = advance heap.next ks ∧ Filled size later (placed ++ more) ∧
      means (placed ++ more) a := by
  cases h with
  | stored room next_eq filled meant => exact ⟨_, next_eq, filled, meant⟩

theorem Stores.pure {a : α} (h : ∀ placed, needs placed → means placed a) :
    Stores size [] needs (pure a) means := by
  intro heap placed hfilled hneeds
  have hmeans := h placed hneeds
  rw [← List.append_nil placed] at hfilled hmeans
  exact .stored hfilled.next_le rfl hfilled hmeans

/-- **One computation after another** fills the heap by the records of both. -/
theorem Stores.bind {means' : List Placement → β → Prop} {f : α → Storing β}
    (hm : Stores size ks needs m means)
    (hf : ∀ a, Stores size ls (fun placed => means placed a) (f a) means') :
    Stores size (ks ++ ls) needs (m >>= f) means' := by
  intro heap placed hfilled hneeds
  have hfirst := hm heap placed hfilled hneeds
  cases hrun : m.on heap with
  | mk result middle =>
  rw [hrun] at hfirst
  cases hfirst with
  | @stored a _ more room next_eq filled meant =>
    have hrest := hf a middle _ filled meant
    rw [Storing.on_bind_of_ok hrun]
    cases hlast : (f a).on middle with
    | mk result' later =>
    rw [hlast] at hrest
    cases hrest with
    | stored room' next_eq' filled' meant' =>
      rw [next_eq, ← advance_append] at room' next_eq'
      rw [List.append_assoc] at filled' meant'
      exact .stored room' next_eq' filled' meant'
    | refused full =>
      rw [next_eq, ← advance_append] at full
      exact .refused full
  | refused full =>
    rw [Storing.on_bind_of_error hrun]
    refine .refused (Nat.lt_of_lt_of_le full ?_)
    rw [advance_append]
    exact le_advance _ _

theorem Stores.frame {kept : List Placement → Prop}
    (hkept : ∀ placed more, kept placed → kept (placed ++ more))
    (h : Stores size ks (fun _ => True) m means) :
    Stores size ks kept m fun placed a => kept placed ∧ means placed a := by
  intro heap placed hfilled hneeds
  have hend := h heap placed hfilled trivial
  cases hrun : m.on heap with
  | mk result later =>
  rw [hrun] at hend
  cases hend with
  | stored room next_eq filled meant =>
    exact .stored room next_eq filled ⟨hkept _ _ hneeds, meant⟩
  | refused full => exact .refused full

end

/-! ## storing trees -/

theorem store_leaf {a : Atom} {w : Word} (hw : Value.decode w = .atom a) (heap : Heap) :
    (store (.atom a)).on heap = (.ok w, heap) := by
  rw [← Value.encode_of_decode hw]
  rfl

/-- A record of words that stand for trees stands for the node of these trees. -/
theorem stores_place (hmax : size ≤ Arena.maxWords) (elements : List Word) (ts : List Tree) :
    Stores size [ts.length] (fun placed => List.Forall₂ (UnfoldsTo (listed placed)) elements ts)
      (place elements) fun placed w => UnfoldsTo (listed placed) w (.node ts) := by
  intro heap placed hfilled helements
  have hsize := hfilled.size_eq
  have hnext : advance heap.next [ts.length] = heap.start + (elements.length + 1) := by
    rw [helements.length_eq]
    rfl
  show Outcome size heap placed [ts.length] _ (heap.alloc elements)
  by_cases hroom : elements.length + 1 ≤ heap.available
  · have hmax' : heap.arena.size ≤ Arena.maxWords := by rwa [hsize]
    have hholds := hfilled.holds.alloc_of_le hmax' hroom
    have hsize' := (size_alloc heap elements).trans hsize
    have hstop : (heap.placement elements).stop = advance heap.next [ts.length] := by
      rw [Placement.stop, start_placement hmax' hroom, hnext]
      rfl
    have hfits : advance heap.next [ts.length] ≤ size := by
      rw [available, hsize] at hroom
      omega
    have hnew : (⟨_, elements⟩ : Placement) ∈ placed ++ [heap.placement elements] :=
      List.mem_append_right _ (List.mem_singleton.mpr rfl)
    have hkept := helements.imp fun x t hx => hx.append [heap.placement elements]
    rw [alloc_eq_placement hmax' hroom] at hholds hsize' ⊢
    have hfilled' : Filled size _ (placed ++ [heap.placement elements]) :=
      ⟨hholds, hsize', hstop ▸ hfits⟩
    exact .stored hfits hstop hfilled'
      (unfoldsTo_node.mpr ⟨_, elements, Value.decode_toWord _, hnew, hkept⟩)
  · rw [alloc_of_lt (Nat.lt_of_not_le hroom)]
    rw [available, hsize] at hroom
    refine .refused ?_
    omega

theorem stores_storeAll (ts : List Tree)
    (h : ∀ t ∈ ts, Stores size t.arities (fun _ => True) (store t)
      fun placed w => UnfoldsTo (listed placed) w t) :
    Stores size (Tree.aritiesAll ts) (fun _ => True) (storeAll ts)
      fun placed ws => List.Forall₂ (UnfoldsTo (listed placed)) ws ts := by
  induction ts with
  | nil => exact .pure fun _ _ => .nil
  | cons t ts ih =>
    rw [List.forall_mem_cons] at h
    rw [Tree.aritiesAll, ← List.append_nil (Tree.aritiesAll ts)]
    refine h.1.bind fun w => ?_
    -- the word of the first tree still stands for it when the others have been stored
    have hkept := (ih h.2).frame fun placed more (hw : UnfoldsTo (listed placed) w t) =>
      hw.append more
    exact hkept.bind fun ws => .pure fun placed hall => .cons hall.1 hall.2

/-- **Storing a tree** takes up the words of its nodes, and gives a word that stands for it. -/
theorem stores_store (hmax : size ≤ Arena.maxWords) (t : Tree) (ht : t.Canonical) :
    Stores size t.arities (fun _ => True) (store t)
      fun placed w => UnfoldsTo (listed placed) w t := by
  induction t with
  | atom a =>
    have ha := (Tree.canonical_atom.mp ht).decode_encode
    exact .pure fun _ _ => unfoldsTo_atom.mpr ha
  | node children ih =>
    have hall := stores_storeAll children fun t hmem => ih t hmem (Tree.canonical_node.mp ht t hmem)
    exact hall.bind fun elements => stores_place hmax elements children

theorem filled_zeros (size : Nat) : Filled size ⟨Arena.zeros size, 0⟩ [] :=
  ⟨holds_zeros size, Arena.size_zeros size, Nat.zero_le size⟩

theorem Filled.unfoldsTo (h : Filled size heap placed) (hmax : size ≤ Arena.maxWords) {w : Word}
    {t : Tree} (hw : UnfoldsTo (listed placed) w t) : UnfoldsTo heap.arena.records w t :=
  h.holds.unfoldsTo (h.size_eq ▸ hmax) hw

/-- **Trees that are stored in a new heap are read back**, and compare as the trees do.  The leaves
of the trees are all words that are no references. -/
theorem store_trees (size : Nat) (hmin : Arena.minWords ≤ size) (hmax : size ≤ Arena.maxWords) :
    (∀ a w heap, Value.decode w = .atom a → (store (.atom a)).on heap = (.ok w, heap)) ∧
    ∃ new, ofSize size = .ok new ∧ ∀ t : Tree, t.Canonical →
      ((∃ w, ((store t).on new).1 = .ok w) ↔ extent t.arities ≤ size) ∧
      ∀ w heap, (store t).on new = (.ok w, heap) →
        (heap.arena.render w).run = some (.ok t.text) ∧
        (heap.arena.renderByStack w).run = some (.ok t.text) ∧
        Written t t.text.toList ∧
        ∀ u : Tree, u.Canonical →
          ((∃ v, ((store u).on heap).1 = .ok v) ↔ extent (t.arities ++ u.arities) ≤ size) ∧
          ∀ v later, (store u).on heap = (.ok v, later) →
            ∃ verdict, (verdict = true ↔ t = u) ∧ later.arena.Answers w v t.text verdict ∧
              later.arena.Answers v w u.text verdict := by
  classical
  have hnew : ofSize size = .ok ⟨Arena.zeros size, 0⟩ := ofSize_eq_ok_iff.mpr ⟨⟨hmin, hmax⟩, rfl⟩
  refine ⟨fun a w heap hw => store_leaf hw heap, _, hnew, fun t ht => ?_⟩
  have hstore := stores_store hmax t ht _ _ (filled_zeros size) trivial
  have hroom := hstore.succeeds_iff
  rw [advance_zero] at hroom
  refine ⟨hroom, fun w heap hrun => ?_⟩
  rw [hrun] at hstore
  obtain ⟨more, hnext, hfilled, hw⟩ := hstore.exists_of_ok
  have hnow := Arena.answers_of_unfoldsTo (hfilled.unfoldsTo hmax hw) (hfilled.unfoldsTo hmax hw)
  refine ⟨hnow.render, hnow.renderByStack, ht.written, fun u hu => ?_⟩
  have hstore' := stores_store hmax u hu heap _ hfilled trivial
  have hroom' := hstore'.succeeds_iff
  rw [hnext, ← advance_append, advance_zero] at hroom'
  refine ⟨hroom', fun v later hrun' => ?_⟩
  rw [hrun'] at hstore'
  obtain ⟨more', -, hfilled', hv⟩ := hstore'.exists_of_ok
  -- the first word still stands for its tree in the heap that holds both
  have hw' := hfilled'.unfoldsTo hmax (hw.append more')
  have hv' := hfilled'.unfoldsTo hmax hv
  refine ⟨decide (t = u), decide_eq_true_iff, Arena.answers_of_unfoldsTo hw' hv', ?_⟩
  have hback := Arena.answers_of_unfoldsTo hv' hw'
  rwa [decide_eq_decide.mpr eq_comm] at hback

/-- Two trees that fill a heap to the last word. -/
theorem store_trees_full :
    ∃ new, ofSize 8 = .ok new ∧
      (store (.node [.atom (.int 1), .node []])).on new =
        (.ok 9, ⟨⟨#[0, 0, 2, 2, 1, 0, 0, 0]⟩, 5⟩) ∧
      (store (.node [.atom (.int 4)])).on ⟨⟨#[0, 0, 2, 2, 1, 0, 0, 0]⟩, 5⟩ =
        (.ok 25, ⟨⟨#[0, 0, 2, 2, 1, 0, 1, 8]⟩, 8⟩) ∧
      Arena.Answers ⟨#[0, 0, 2, 2, 1, 0, 1, 8]⟩ 9 25 "(1,())" false := by
  obtain ⟨-, new, hnew, hstore⟩ := store_trees 8 (by decide) (by decide)
  have ht : (Tree.node [.atom (.int 1), .node []]).Canonical :=
    ⟨⟨2, by decide⟩, trivial, trivial⟩
  have hu : (Tree.node [.atom (.int 4)]).Canonical := ⟨⟨8, by decide⟩, trivial⟩
  have hrun : (store (.node [.atom (.int 1), .node []])).on new =
      (.ok 9, ⟨⟨#[0, 0, 2, 2, 1, 0, 0, 0]⟩, 5⟩) := by
    cases hnew
    rfl
  have hrun' : (store (.node [.atom (.int 4)])).on ⟨⟨#[0, 0, 2, 2, 1, 0, 0, 0]⟩, 5⟩ =
      (.ok 25, ⟨⟨#[0, 0, 2, 2, 1, 0, 1, 8]⟩, 8⟩) := rfl
  obtain ⟨verdict, hverdict, hanswers, -⟩ :=
    (((hstore _ ht).2 _ _ hrun).2.2.2 _ hu).2 _ _ hrun'
  have hfalse : verdict = false := by
    rw [← Bool.not_eq_true, hverdict]
    intro h
    injection h with h
    injection h with _ h
    contradiction
  rw [hfalse] at hanswers
  exact ⟨new, hnew, hrun, hrun', hanswers⟩

end Heap

end TaggedWords
