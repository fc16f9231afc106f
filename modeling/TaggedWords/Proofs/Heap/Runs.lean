import TaggedWords.Proofs.Heap.Layout

/-!
# Allocating again and again

Any sequence of allocations on a new heap, of which some may fail for want of room, leaves exactly
the records of those that succeeded: each where its call found the heap's end, with its elements as
they were given.  A call that fails changes nothing, so a smaller record may still be put in.

* `Heap.AllocSpec`       what one call returns and leaves behind;
* `Heap.allocMany`       the calls of a run, one after the other;
* `Heap.placements`      the records of a run, told from what its calls returned;
* `Holds.allocMany`      a run keeps what the heap held, and adds these records;
* `allocMany_holds_placements`   all runs on a new heap.
-/

namespace TaggedWords

namespace Heap

variable {heap : Heap} {size : Nat} {elements : List Word} {calls : List (List Word)}

/-! ## one call -/

/-- What a call returns and leaves behind, on an arena of so many words. -/
structure AllocSpec (size : Nat) (heap : Heap) (elements : List Word) : Prop where
  succeeds_iff : (∃ w, (heap.alloc elements).1 = .ok w) ↔
    roundUp heap.next + elements.length + 1 ≤ size
  /-- The words that a failure reports as available are those that a call may ask for. -/
  fits_iff : (∃ w, (heap.alloc elements).1 = .ok w) ↔
    elements.length + 1 ≤ size - roundUp heap.next
  succeeded : ∀ w, (heap.alloc elements).1 = .ok w →
    w.toNat = 4 * roundUp heap.next + 1 ∧
    (∃ r, Value.decode w = .tuple r ∧ r.index = roundUp heap.next) ∧
    (heap.alloc elements).2.next = roundUp heap.next + elements.length + 1
  failed : size < roundUp heap.next + elements.length + 1 →
    heap.alloc elements =
      (.error (.exhausted (elements.length + 1) (size - roundUp heap.next)), heap)
  never_outOfBounds : ∀ offset words,
    (heap.alloc elements).1 ≠ .error (.outOfBounds offset words)

theorem alloc_spec_of_le (hmax : heap.arena.size ≤ Arena.maxWords)
    (hroom : elements.length + 1 ≤ heap.available) :
    AllocSpec heap.arena.size heap elements := by
  have halloc := alloc_eq_placement hmax hroom
  have hindex : (heap.placement elements).start = roundUp heap.next := start_placement hmax hroom
  have hok : ∃ w, (heap.alloc elements).1 = .ok w := by
    rw [halloc]
    exact ⟨_, rfl⟩
  rw [available, start] at hroom
  refine ⟨iff_of_true hok (by omega), iff_of_true hok hroom, ?_, by omega, ?_⟩
  · intro w hw
    rw [halloc] at hw ⊢
    cases hw
    refine ⟨?_, ⟨_, Value.decode_toWord _, hindex⟩, ?_⟩
    · -- the offset is a multiple of eight, so the index gives it back without a remainder
      have haligned := (heap.placement elements).reference.offset_mod_eight
      rw [Placement.start, Reference.index, Reference.wordBytes] at hindex
      rw [Reference.toNat_toWord]
      omega
    · show (heap.placement elements).start + (elements.length + 1) = _
      rw [hindex]
      rfl
  · intro offset words h
    rw [halloc] at h
    contradiction

theorem alloc_spec_of_lt (hroom : heap.available < elements.length + 1) :
    AllocSpec heap.arena.size heap elements := by
  have halloc := alloc_of_lt hroom
  have hnone : ¬ ∃ w, (heap.alloc elements).1 = .ok w := by
    rintro ⟨w, hw⟩
    rw [halloc] at hw
    contradiction
  rw [available, start] at hroom
  refine ⟨iff_of_false hnone (by omega), iff_of_false hnone (by omega), ?_, fun _ => halloc, ?_⟩
  · intro w hw
    exact absurd ⟨w, hw⟩ hnone
  · intro offset words h
    rw [halloc] at h
    cases h

theorem alloc_spec (hsize : heap.arena.size = size) (hmax : size ≤ Arena.maxWords)
    (elements : List Word) : AllocSpec size heap elements := by
  subst hsize
  by_cases hroom : elements.length + 1 ≤ heap.available
  · exact alloc_spec_of_le hmax hroom
  · exact alloc_spec_of_lt (Nat.lt_of_not_le hroom)

theorem decode_of_alloc {w : Word} (h : (heap.alloc elements).1 = .ok w) :
    Value.decode w = .tuple (heap.placement elements).reference := by
  by_cases hroom : elements.length + 1 ≤ heap.available
  · rw [alloc_of_le hroom] at h
    cases h
    exact Value.decode_toWord _
  · rw [alloc_of_lt (Nat.lt_of_not_le hroom)] at h
    contradiction

theorem size_alloc (heap : Heap) (elements : List Word) :
    (heap.alloc elements).2.arena.size = heap.arena.size := by
  by_cases hroom : elements.length + 1 ≤ heap.available
  · rw [alloc_of_le hroom]
    exact Arena.size_write _ _ _
  · rw [alloc_of_lt (Nat.lt_of_not_le hroom)]

/-! ## runs -/

def allocMany : Heap → List (List Word) → List (Except ArenaError Word) × Heap
  | heap, [] => ([], heap)
  | heap, elements :: calls =>
    let (result, heap) := heap.alloc elements
    let (results, heap) := heap.allocMany calls
    (result :: results, heap)

theorem allocMany_cons (heap : Heap) (elements : List Word) (calls : List (List Word)) :
    heap.allocMany (elements :: calls) =
      ((heap.alloc elements).1 :: ((heap.alloc elements).2.allocMany calls).1,
        ((heap.alloc elements).2.allocMany calls).2) := rfl

def placed? (elements : List Word) : Except ArenaError Word → Option Placement
  | .error _ => none
  | .ok w =>
    match Value.decode w with
    | .tuple r => some ⟨r, elements⟩
    | .atom _ => none

def placements (calls : List (List Word)) (results : List (Except ArenaError Word)) :
    List Placement :=
  (calls.zip results).filterMap fun call => placed? call.1 call.2

theorem placements_cons (elements : List Word) (calls : List (List Word))
    (result : Except ArenaError Word) (results : List (Except ArenaError Word)) :
    placements (elements :: calls) (result :: results) =
      (placed? elements result).toList ++ placements calls results := by
  rw [placements, List.zip_cons_cons, List.filterMap_cons]
  cases placed? elements result <;> rfl

theorem placed?_of_le (hroom : elements.length + 1 ≤ heap.available) :
    placed? elements (heap.alloc elements).1 = some (heap.placement elements) := by
  rw [alloc_of_le hroom]
  show placed? elements (.ok (heap.placement elements).reference.toWord) = _
  rw [placed?, Value.decode_toWord]
  rfl

theorem placed?_of_lt (hroom : heap.available < elements.length + 1) :
    placed? elements (heap.alloc elements).1 = none := by
  rw [alloc_of_lt hroom]
  rfl

theorem length_allocMany (heap : Heap) (calls : List (List Word)) :
    (heap.allocMany calls).1.length = calls.length := by
  induction calls generalizing heap with
  | nil => rfl
  | cons elements calls ih => rw [allocMany_cons, List.length_cons, ih, List.length_cons]

theorem size_allocMany (heap : Heap) (calls : List (List Word)) :
    (heap.allocMany calls).2.arena.size = heap.arena.size := by
  induction calls generalizing heap with
  | nil => rfl
  | cons elements calls ih => rw [allocMany_cons, ih, size_alloc]

/-- **A run** keeps what the heap held, and adds the records of the calls that succeeded. -/
theorem Holds.allocMany {placed : List Placement} (h : heap.Holds placed)
    (hmax : heap.arena.size ≤ Arena.maxWords) (calls : List (List Word)) :
    (heap.allocMany calls).2.Holds (placed ++ placements calls (heap.allocMany calls).1) := by
  induction calls generalizing heap placed with
  | nil =>
    show heap.Holds (placed ++ [])
    rwa [List.append_nil]
  | cons elements calls ih =>
    rw [allocMany_cons, placements_cons, ← List.append_assoc]
    have hmax' : (heap.alloc elements).2.arena.size ≤ Arena.maxWords := by rwa [size_alloc]
    by_cases hroom : elements.length + 1 ≤ heap.available
    · rw [placed?_of_le hroom]
      exact ih (h.alloc_of_le hmax hroom) hmax'
    · -- the call failed, so the rest of the run starts from the same heap
      have hlt := Nat.lt_of_not_le hroom
      have hsame : (heap.alloc elements).2 = heap := by rw [alloc_of_lt hlt]
      rw [placed?_of_lt hlt, Option.toList_none, List.append_nil, hsame]
      exact ih h hmax

theorem mem_placements {w : Word} (h : (elements, .ok w) ∈ calls.zip (heap.allocMany calls).1) :
    ∃ r, Value.decode w = .tuple r ∧
      (⟨r, elements⟩ : Placement) ∈ placements calls (heap.allocMany calls).1 := by
  induction calls generalizing heap with
  | nil => contradiction
  | cons first calls ih =>
    rw [allocMany_cons] at h ⊢
    rw [placements_cons]
    rcases List.mem_cons.mp h with hfirst | hrest
    · obtain ⟨rfl, hw⟩ := Prod.mk.inj hfirst
      have hr := decode_of_alloc hw.symm
      refine ⟨_, hr, List.mem_append_left _ ?_⟩
      rw [← hw, placed?, hr]
      exact List.mem_singleton.mpr rfl
    · obtain ⟨r, hr, hmem⟩ := ih hrest
      exact ⟨r, hr, List.mem_append_right _ hmem⟩

/-- **All runs on a new heap.**  Afterwards the arena consists of the records of the calls that
succeeded, none of which share a word, and of zeros. -/
theorem allocMany_holds_placements (size : Nat) (hmin : Arena.minWords ≤ size)
    (hmax : size ≤ Arena.maxWords) :
    ∃ new, ofSize size = .ok new ∧ new.next = 0 ∧
      ∀ calls results heap, new.allocMany calls = (results, heap) →
        (∀ elements, AllocSpec size heap elements) ∧
        heap.arena.size = size ∧
        results.length = calls.length ∧
        heap.Holds (placements calls results) ∧
        (placements calls results).Pairwise (fun p q => ∀ i, p.Covers i → ¬ q.Covers i) ∧
        ∀ elements w, (elements, .ok w) ∈ calls.zip results →
          ∃ r, Value.decode w = .tuple r ∧
            (⟨r, elements⟩ : Placement) ∈ placements calls results ∧
            heap.arena.record r = .ok elements := by
  refine ⟨⟨Arena.zeros size, 0⟩, ?_, rfl, ?_⟩
  · rw [ofSize, Arena.ofSize, (Arena.checkSize_eq_ok_iff size).mpr ⟨hmin, hmax⟩]
    rfl
  · intro calls results heap hrun
    obtain ⟨rfl, rfl⟩ := Prod.ext_iff.mp hrun
    have hzeros : (Arena.zeros size).size ≤ Arena.maxWords := by rwa [Arena.size_zeros]
    have hsize := size_allocMany ⟨Arena.zeros size, 0⟩ calls
    have hholds := (holds_zeros size).allocMany hzeros calls
    rw [Arena.size_zeros] at hsize
    rw [List.nil_append] at hholds
    refine ⟨alloc_spec hsize hmax, hsize, length_allocMany _ calls, hholds, hholds.disjoint, ?_⟩
    intro elements w hcall
    obtain ⟨r, hr, hplaced⟩ := mem_placements hcall
    rw [← hsize] at hmax
    exact ⟨r, hr, hplaced, Arena.record_of_contains (hholds.contains _ hplaced) hmax⟩

/-- Of three calls the second fails: one word is left behind its start, which the third takes. -/
theorem allocMany_holds_placements_five :
    ∃ new, ofSize 5 = .ok new ∧
      new.allocMany [[2, 4], [6], []] =
        ([.ok 1, .error (.exhausted 2 1), .ok 17], ⟨⟨#[2, 2, 4, 0, 0]⟩, 5⟩) ∧
      Holds ⟨⟨#[2, 2, 4, 0, 0]⟩, 5⟩ [⟨⟨0, rfl⟩, [2, 4]⟩, ⟨⟨16, rfl⟩, []⟩] := by
  obtain ⟨new, hnew, -, hruns⟩ := allocMany_holds_placements 5 (by decide) (by decide)
  have hrun : new.allocMany [[2, 4], [6], []] =
      ([.ok 1, .error (.exhausted 2 1), .ok 17], ⟨⟨#[2, 2, 4, 0, 0]⟩, 5⟩) := by
    cases hnew
    rfl
  obtain ⟨-, -, -, hholds, -, -⟩ := hruns _ _ _ hrun
  exact ⟨new, hnew, hrun, hholds⟩

end Heap

end TaggedWords
