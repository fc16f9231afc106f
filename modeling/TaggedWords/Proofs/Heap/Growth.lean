import TaggedWords.Proofs.Heap.Runs
import TaggedWords.Proofs.Tree.Meaning

/-!
# Heaps that grow from their own values

A heap whose records have been made from what it returned before, and from words that are no
references, refers to itself backwards only: an element of a record leads to a record that was made
earlier, further in front.  Records may be shared, but none can be part of itself.  So every value
of such a heap stands for a tree, and no later allocation changes which.

* `Heap.IsValue`             the words that a record may be made from;
* `Heap.Grown`               the heaps that such allocations lead to, call after call;
* `Heap.Backward`            the invariant: elements lead to earlier records, values to trees;
* `Backward.alloc_of_le`     one call keeps it;
* `Grown.exists_backward`    so it holds after any sequence of calls;
* `grown_values_answer`      values of a grown heap are rendered and compared, now and ever after.
-/

namespace TaggedWords

theorem Reference.offset_lt_of_index_lt {r s : Reference} (h : r.index < s.index) :
    r.offset.toNat < s.offset.toNat := by
  unfold index wordBytes at h
  omega

theorem exists_forall₂ {α β : Type} {R : α → β → Prop} {xs : List α} (h : ∀ x ∈ xs, ∃ y, R x y) :
    ∃ ys, List.Forall₂ R xs ys := by
  induction xs with
  | nil => exact ⟨[], .nil⟩
  | cons x xs ih =>
    rw [List.forall_mem_cons] at h
    obtain ⟨y, hy⟩ := h.1
    obtain ⟨ys, hys⟩ := ih h.2
    exact ⟨y :: ys, .cons hy hys⟩

def listed (placed : List Placement) : Records := fun r elements => ⟨r, elements⟩ ∈ placed

theorem UnfoldsTo.append {placed : List Placement} {w : Word} {t : Tree}
    (h : UnfoldsTo (listed placed) w t) (more : List Placement) :
    UnfoldsTo (listed (placed ++ more)) w t :=
  h.mono fun _ _ hr => List.mem_append_left more hr

namespace Heap

variable {heap : Heap} {size : Nat} {placed : List Placement} {refs elements : List Word}
  {w : Word} {t : Tree}

theorem Holds.unfoldsTo (h : heap.Holds placed) (hmax : heap.arena.size ≤ Arena.maxWords)
    (hw : UnfoldsTo (listed placed) w t) : UnfoldsTo heap.arena.records w t := by
  apply hw.mono
  intro r elements hr
  have hp : (⟨r, elements⟩ : Placement) ∈ placed := hr
  exact Arena.record_of_contains (h.contains _ hp) hmax

def IsValue (refs : List Word) (w : Word) : Prop := (∃ a, Value.decode w = .atom a) ∨ w ∈ refs

def returned : Except ArenaError Word → List Word
  | .ok w => [w]
  | .error _ => []

/-- The heaps of calls whose elements are no references, or references that were returned. -/
inductive Grown (size : Nat) : Heap → List Word → Prop where
  | new {heap : Heap} (created : Heap.ofSize size = .ok heap) : Grown size heap []
  | alloc {heap : Heap} {refs elements : List Word} (grown : Grown size heap refs)
    (values : ∀ x ∈ elements, IsValue refs x) :
    Grown size (heap.alloc elements).2 (refs ++ returned (heap.alloc elements).1)

/-! ## the invariant -/

/-- The heap consists of these records, whose elements lead to records in front of them. -/
structure Backward (heap : Heap) (placed : List Placement) : Prop where
  holds : heap.Holds placed
  size_le : heap.arena.size ≤ Arena.maxWords
  earlier : ∀ p ∈ placed, ∀ x ∈ p.elements, ∀ s, Value.decode x = .tuple s →
    ∃ q ∈ placed, q.reference = s ∧ q.stop ≤ p.start
  tree : ∀ p ∈ placed, ∃ t, UnfoldsTo (listed placed) p.reference.toWord t

def references (placed : List Placement) : List Word := placed.map fun p => p.reference.toWord

theorem backward_new (created : ofSize size = .ok heap) : heap.Backward [] := by
  obtain ⟨⟨-, hmax⟩, rfl⟩ := ofSize_eq_ok_iff.mp created
  refine ⟨holds_zeros size, ?_, ?_, ?_⟩
  · rwa [Arena.size_zeros]
  · intro p hp
    contradiction
  · intro p hp
    contradiction

theorem Backward.exists_tree (h : heap.Backward placed) (hw : IsValue (references placed) w) :
    ∃ t, UnfoldsTo (listed placed) w t := by
  rcases hw with ⟨a, ha⟩ | hw
  · exact ⟨.atom a, unfoldsTo_atom.mpr ha⟩
  · obtain ⟨p, hp, rfl⟩ := List.mem_map.mp hw
    exact h.tree p hp

theorem Backward.exists_earlier (h : heap.Backward placed)
    (hvalue : IsValue (references placed) w) {s : Reference} (hw : Value.decode w = .tuple s) :
    ∃ q ∈ placed, q.reference = s ∧ q.stop ≤ heap.start := by
  rcases hvalue with ⟨a, ha⟩ | hvalue
  · rw [ha] at hw
    contradiction
  · obtain ⟨q, hq, rfl⟩ := List.mem_map.mp hvalue
    rw [Value.decode_toWord] at hw
    injection hw with hs
    exact ⟨q, hq, hs, Nat.le_trans (h.holds.below q hq) heap.next_le_start⟩

/-- **One call** that makes a record of values keeps the invariant. -/
theorem Backward.alloc_of_le (h : heap.Backward placed)
    (values : ∀ x ∈ elements, IsValue (references placed) x)
    (hroom : elements.length + 1 ≤ heap.available) :
    (heap.alloc elements).2.Backward (placed ++ [heap.placement elements]) := by
  have hstart := start_placement h.size_le hroom
  refine ⟨h.holds.alloc_of_le h.size_le hroom, ?_, ?_, ?_⟩
  · rw [size_alloc]
    exact h.size_le
  · intro p hp x hx s hs
    rcases List.mem_append.mp hp with hp | hp
    · obtain ⟨q, hq, hqs, hle⟩ := h.earlier p hp x hx s hs
      exact ⟨q, List.mem_append_left _ hq, hqs, hle⟩
    · rw [List.mem_singleton.mp hp] at hx ⊢
      obtain ⟨q, hq, hqs, hle⟩ := h.exists_earlier (values x hx) hs
      rw [hstart]
      exact ⟨q, List.mem_append_left _ hq, hqs, hle⟩
  · intro p hp
    rcases List.mem_append.mp hp with hp | hp
    · obtain ⟨t, ht⟩ := h.tree p hp
      exact ⟨t, ht.append _⟩
    · rw [List.mem_singleton.mp hp]
      obtain ⟨ts, hts⟩ := exists_forall₂ fun x hx => h.exists_tree (values x hx)
      refine ⟨.node ts, unfoldsTo_node.mpr ⟨_, elements, Value.decode_toWord _, ?_, ?_⟩⟩
      · exact List.mem_append_right _ (List.mem_singleton.mpr rfl)
      · exact hts.imp fun x t hx => hx.append _

theorem Grown.exists_backward (h : Grown size heap refs) :
    ∃ placed, heap.Backward placed ∧ refs = references placed := by
  induction h with
  | new created => exact ⟨[], backward_new created, rfl⟩
  | @alloc heap refs elements _ values ih =>
    obtain ⟨placed, hback, rfl⟩ := ih
    by_cases hroom : elements.length + 1 ≤ heap.available
    · refine ⟨_, hback.alloc_of_le values hroom, ?_⟩
      rw [alloc_eq_placement hback.size_le hroom, references, references, List.map_append]
      rfl
    · -- a call that fails returns nothing and leaves the heap as it was
      rw [alloc_of_lt (Nat.lt_of_not_le hroom)]
      refine ⟨placed, hback, ?_⟩
      show references placed ++ [] = references placed
      rw [List.append_nil]

/-! ## the values of a grown heap -/

/-- A tree that is told from the records is the same after any further calls. -/
theorem Backward.unfoldsTo_allocMany (h : heap.Backward placed)
    (hw : UnfoldsTo (listed placed) w t) (calls : List (List Word)) :
    UnfoldsTo (heap.allocMany calls).2.arena.records w t := by
  have hmax : (heap.allocMany calls).2.arena.size ≤ Arena.maxWords := by
    rw [size_allocMany]
    exact h.size_le
  exact (h.holds.allocMany h.size_le calls).unfoldsTo hmax (hw.append _)

/-- **Values of a heap that grew from its own values are safe to walk, and stay so**: further calls,
whether they succeed or fail, do not change the answers. -/
theorem grown_values_answer (size : Nat) (heap : Heap) (refs : List Word)
    (h : Grown size heap refs) :
    (∃ placed, heap.Holds placed ∧ refs = references placed ∧
      ∀ p ∈ placed, heap.arena.record p.reference = .ok p.elements ∧
        ∀ x ∈ p.elements, ∀ s, Value.decode x = .tuple s →
          x ∈ refs ∧ s.offset.toNat < p.reference.offset.toNat ∧
            ∃ ys, heap.arena.record s = .ok ys) ∧
    ∀ a b, IsValue refs a → IsValue refs b →
      ∃ text verdict, heap.arena.Answers a b text verdict ∧
        ∀ calls, (heap.allocMany calls).2.arena.Answers a b text verdict := by
  obtain ⟨placed, hback, rfl⟩ := h.exists_backward
  have hrecord : ∀ p ∈ placed, heap.arena.record p.reference = .ok p.elements :=
    fun p hp => Arena.record_of_contains (hback.holds.contains p hp) hback.size_le
  constructor
  · refine ⟨placed, hback.holds, rfl, fun p hp => ⟨hrecord p hp, ?_⟩⟩
    intro x hx s hs
    obtain ⟨q, hq, rfl, hle⟩ := hback.earlier p hp x hx s hs
    have hstop : q.start < q.stop := Nat.lt_add_of_pos_right (Nat.succ_pos _)
    have hlt : q.start < p.start := Nat.lt_of_lt_of_le hstop hle
    refine ⟨?_, Reference.offset_lt_of_index_lt hlt, q.elements, hrecord q hq⟩
    rw [← Value.toWord_of_decode hs]
    exact List.mem_map.mpr ⟨q, hq, rfl⟩
  · intro a b ha hb
    obtain ⟨t, ht⟩ := hback.exists_tree ha
    obtain ⟨u, hu⟩ := hback.exists_tree hb
    have hnow := Arena.answers_of_unfoldsTo (hback.holds.unfoldsTo hback.size_le ht)
      (hback.holds.unfoldsTo hback.size_le hu)
    refine ⟨_, _, hnow, fun calls => ?_⟩
    exact Arena.answers_of_unfoldsTo (hback.unfoldsTo_allocMany ht calls)
      (hback.unfoldsTo_allocMany hu calls)

/-- A record holds another one twice; a reference to nowhere is allocated behind them. -/
theorem grown_values_answer_shared :
    Grown 8 ⟨⟨#[2, 2, 4, 0, 2, 1, 1, 0]⟩, 7⟩ [1, 17] ∧
      ∀ calls, ((allocMany ⟨⟨#[2, 2, 4, 0, 2, 1, 1, 0]⟩, 7⟩ calls).2.arena.render 17).run =
        some (.ok "((1,2),(1,2))") := by
  have hempty : Grown 8 ⟨Arena.zeros 8, 0⟩ [] := .new rfl
  have hfirst : Grown 8 ⟨⟨#[2, 2, 4, 0, 0, 0, 0, 0]⟩, 3⟩ [1] := by
    have hatoms : ∀ x ∈ [2, 4], IsValue [] x := by
      intro x hx
      rcases List.mem_pair.mp hx with rfl | rfl
      · exact .inl ⟨.int 1, by decide⟩
      · exact .inl ⟨.int 2, by decide⟩
    exact hempty.alloc hatoms
  have hgrown : Grown 8 ⟨⟨#[2, 2, 4, 0, 2, 1, 1, 0]⟩, 7⟩ [1, 17] := by
    have hrefs : ∀ x ∈ [1, 1], IsValue [1] x := by
      intro x hx
      rcases List.mem_pair.mp hx with rfl | rfl <;> exact .inr List.mem_cons_self
    exact hfirst.alloc hrefs
  have hvalue : IsValue [1, 17] 17 := .inr (by decide)
  obtain ⟨text, verdict, hnow, hlater⟩ := (grown_values_answer 8 _ _ hgrown).2 17 17 hvalue hvalue
  have htext : text = "((1,2),(1,2))" := by
    have hrender : (Arena.render ⟨#[2, 2, 4, 0, 2, 1, 1, 0]⟩ 17).run =
        some (.ok "((1,2),(1,2))") := by decide +kernel
    have heq := hnow.render.symm.trans hrender
    injection heq with heq
    injection heq
  rw [htext] at hlater
  exact ⟨hgrown, fun calls => (hlater calls).render⟩

end Heap

end TaggedWords
