import TaggedWords.Arena.Heap
import TaggedWords.Word.Value

/-!
# What a heap holds

A heap's arena consists of the records that were allocated, one behind the other, and of zeros: a
padding word in front of a record that would start at an odd index, and all words behind the last
record.

* `Placement`              a record in an arena: the reference to it and its elements;
* `Arena.Contains`         the words of a record stand at its place;
* `Heap.Holds`             the arena consists of these records and of zeros;
* `Holds.alloc_of_le`      a new record is added behind the others, and leaves them alone;
* `record_of_contains`     a record that stands in an arena is read back.
-/

namespace TaggedWords

structure Placement where
  reference : Reference
  elements : List Word
  deriving DecidableEq, Repr

namespace Placement

def start (p : Placement) : Nat := p.reference.index

def stop (p : Placement) : Nat := p.start + (p.elements.length + 1)

def words (p : Placement) : List Word := UInt32.ofNat p.elements.length :: p.elements

def Covers (p : Placement) (i : Nat) : Prop := p.start ≤ i ∧ i < p.stop

theorem length_words (p : Placement) : p.words.length = p.elements.length + 1 := rfl

theorem stop_eq (p : Placement) : p.stop = p.start + p.words.length := rfl

end Placement

namespace Arena

variable {arena : Arena} {p : Placement}

def Contains (arena : Arena) (p : Placement) : Prop :=
  ∀ i, i < p.words.length → arena.words[p.start + i]? = p.words[i]?

theorem Contains.stop_le (h : arena.Contains p) : p.stop ≤ arena.size := by
  have hlast := h p.elements.length (Nat.lt_succ_self _)
  have hword : p.words[p.elements.length]? ≠ none := by
    rw [Ne, List.getElem?_eq_none_iff, p.length_words]
    omega
  rw [← hlast, Ne, Array.getElem?_eq_none_iff] at hword
  rw [Placement.stop, size]
  omega

theorem record_of_contains (h : arena.Contains p) (hsize : arena.size ≤ maxWords) :
    arena.record p.reference = .ok p.elements := by
  have hstop := h.stop_le
  rw [Placement.stop] at hstop
  have hcount : arena.words[p.reference.index]? = some (UInt32.ofNat p.elements.length) :=
    h 0 (Nat.succ_pos _)
  -- the count is not cut off, because the record fits into the arena
  have hlength : (UInt32.ofNat p.elements.length).toNat = p.elements.length := by
    apply UInt32.toNat_ofNat_of_lt'
    rw [maxWords] at hsize
    show p.elements.length < 4294967296
    omega
  refine record_eq_ok_iff.mpr ⟨_, hcount, hlength, fun i hi => ?_⟩
  have hword := h (i + 1) (Nat.succ_lt_succ hi)
  have hindex : p.start + (i + 1) = p.reference.index + 1 + i := by
    show p.reference.index + (i + 1) = _
    omega
  rw [hindex] at hword
  exact hword

theorem contains_write (h : p.stop ≤ arena.size) :
    (arena.write p.start p.words).Contains p := by
  intro i hi
  rw [Placement.stop_eq] at h
  rw [getElem?_write, if_pos ⟨by omega, by omega, by omega⟩, Nat.add_sub_cancel_left]

/-- A record stands where it stood if words behind it are overwritten. -/
theorem Contains.write (h : arena.Contains p) {index : Nat} (hindex : p.stop ≤ index)
    (words : List Word) : (arena.write index words).Contains p := by
  intro i hi
  rw [Placement.stop_eq] at hindex
  rw [getElem?_write, if_neg (by omega)]
  exact h i hi

end Arena

namespace Heap

variable {heap : Heap} {elements : List Word} {placed : List Placement}

theorem ofSize_eq_ok_iff {size : Nat} :
    ofSize size = .ok heap ↔
      (Arena.minWords ≤ size ∧ size ≤ Arena.maxWords) ∧ heap = ⟨Arena.zeros size, 0⟩ := by
  rw [← Arena.checkSize_eq_ok_iff, ofSize, Arena.ofSize]
  cases Arena.checkSize size with
  | error e =>
    constructor
    · intro h
      cases h
    · rintro ⟨h, -⟩
      cases h
  | ok _ =>
    constructor
    · intro h
      cases h
      exact ⟨rfl, rfl⟩
    · rintro ⟨-, rfl⟩
      rfl

theorem next_le_start (heap : Heap) : heap.next ≤ heap.start := Nat.le_add_right _ _

def placement (heap : Heap) (elements : List Word) : Placement :=
  ⟨Reference.ofIndex heap.start (roundUp_even heap.next), elements⟩

theorem start_placement (hsize : heap.arena.size ≤ Arena.maxWords)
    (hroom : elements.length + 1 ≤ heap.available) :
    (heap.placement elements).start = heap.start := by
  rw [available] at hroom
  rw [Arena.maxWords] at hsize
  have hlt : heap.start < 1073741824 := by omega
  exact Reference.index_ofIndex (roundUp_even heap.next) hlt

theorem alloc_eq_placement (hsize : heap.arena.size ≤ Arena.maxWords)
    (hroom : elements.length + 1 ≤ heap.available) :
    heap.alloc elements = (.ok (heap.placement elements).reference.toWord,
      ⟨heap.arena.write (heap.placement elements).start (heap.placement elements).words,
        (heap.placement elements).stop⟩) := by
  rw [Heap.alloc_of_le hroom, Placement.stop, start_placement hsize hroom]
  rfl

/-- The arena consists of these records, in this order, and of zeros. -/
structure Holds (heap : Heap) (placed : List Placement) : Prop where
  contains : ∀ p ∈ placed, heap.arena.Contains p
  ordered : placed.Pairwise fun p q => p.stop ≤ q.start
  below : ∀ p ∈ placed, p.stop ≤ heap.next
  blank : ∀ i < heap.arena.size, (∀ p ∈ placed, ¬ p.Covers i) → heap.arena.words[i]? = some 0

theorem holds_zeros (words : Nat) : Holds ⟨Arena.zeros words, 0⟩ [] where
  contains p hp := by contradiction
  ordered := .nil
  below p hp := by contradiction
  blank i hi _ := by
    rw [Arena.size_zeros] at hi
    show (Array.replicate words (0 : Word))[i]? = some 0
    rw [Array.getElem?_replicate, if_pos hi]

theorem Holds.disjoint (h : heap.Holds placed) :
    placed.Pairwise fun p q => ∀ i, p.Covers i → ¬ q.Covers i := by
  refine h.ordered.imp fun {p q} hpq i hp hq => ?_
  have hlt := hp.2
  have hle := hq.1
  omega

/-- **One step**: a new record is added behind the others, and leaves them and all padding alone. -/
theorem Holds.alloc_of_le (h : heap.Holds placed) (hsize : heap.arena.size ≤ Arena.maxWords)
    (hroom : elements.length + 1 ≤ heap.available) :
    (heap.alloc elements).2.Holds (placed ++ [heap.placement elements]) := by
  have hstart := start_placement hsize hroom
  have hfits : (heap.placement elements).stop ≤ heap.arena.size := by
    rw [available] at hroom
    rw [Placement.stop, hstart]
    show heap.start + (elements.length + 1) ≤ heap.arena.size
    omega
  have hbehind : ∀ p ∈ placed, p.stop ≤ (heap.placement elements).start := by
    intro p hp
    rw [hstart]
    exact Nat.le_trans (h.below p hp) heap.next_le_start
  rw [alloc_eq_placement hsize hroom]
  constructor
  · intro p hp
    rcases List.mem_append.mp hp with hp | hp
    · exact (h.contains p hp).write (hbehind p hp) _
    · rw [List.mem_singleton.mp hp]
      exact Arena.contains_write hfits
  · refine List.pairwise_append.mpr ⟨h.ordered, List.pairwise_singleton _ _, ?_⟩
    intro p hp q hq
    rw [List.mem_singleton.mp hq]
    exact hbehind p hp
  · intro p hp
    show p.stop ≤ (heap.placement elements).stop
    rcases List.mem_append.mp hp with hp | hp
    · exact Nat.le_trans (hbehind p hp) (Nat.le_add_right _ _)
    · exact Nat.le_of_eq (congrArg Placement.stop (List.mem_singleton.mp hp))
  · intro i hi hfree
    rw [Arena.size_write] at hi
    -- a word that no record covers is not written, and was blank before
    have hnew : ¬ (heap.placement elements).Covers i :=
      hfree _ (List.mem_append_right _ (List.mem_singleton.mpr rfl))
    rw [Arena.getElem?_write, ← Placement.stop_eq, if_neg fun hin => hnew ⟨hin.1, hin.2.1⟩]
    exact h.blank i hi fun p hp => hfree p (List.mem_append_left _ hp)

end Heap

end TaggedWords
