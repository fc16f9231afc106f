import TaggedWords.Arena.Basic

/-!
# Allocating records

A heap is an arena that is filled from the front.  A new record starts at the next even index;
nothing is ever freed or moved.

* `Heap`         an arena and the index of its first word that no record uses;
* `Heap.ofSize`  an empty heap;
* `Heap.alloc`   appends a record and gives the word that refers to it.
-/

namespace TaggedWords

/-- An arena that is filled with records from the front. -/
structure Heap where
  arena : Arena
  /-- The index after the last record. -/
  next : Nat
  deriving DecidableEq, Repr

namespace Heap

def ofSize (words : Nat) : Except ArenaError Heap :=
  (Arena.ofSize words).map fun arena => ⟨arena, 0⟩

/-- The least even index that is not below `i`. -/
def roundUp (i : Nat) : Nat := i + i % 2

theorem roundUp_even (i : Nat) : roundUp i % 2 = 0 := by
  unfold roundUp
  omega

def start (heap : Heap) : Nat := roundUp heap.next

def available (heap : Heap) : Nat := heap.arena.size - heap.start

/-- Appends a record with the given elements.  A heap without room for it stays as it is. -/
def alloc : Heap → List Word → Except ArenaError Word × Heap
  | ⟨arena, next⟩, elements =>
    let size := arena.size
    let requested := elements.length + 1
    let start := roundUp next
    if size - start < requested then
      (.error (.exhausted requested (size - start)), ⟨arena, next⟩)
    else
      let offset := UInt32.ofNat (start * Reference.wordBytes)
      let heap := ⟨arena.write start (UInt32.ofNat elements.length :: elements), start + requested⟩
      match Reference.ofOffset? offset with
      | some r => (.ok r.toWord, heap)
      -- never taken, since every record starts at an even index
      | none => (.error (.outOfBounds offset size), heap)

theorem alloc_of_lt {heap : Heap} {elements : List Word}
    (h : heap.available < elements.length + 1) :
    heap.alloc elements =
      (.error (.exhausted (elements.length + 1) heap.available), heap) :=
  if_pos h

theorem alloc_of_le {heap : Heap} {elements : List Word}
    (h : elements.length + 1 ≤ heap.available) :
    heap.alloc elements =
      (.ok (Reference.ofIndex heap.start (roundUp_even heap.next)).toWord,
        ⟨heap.arena.write heap.start (UInt32.ofNat elements.length :: elements),
          heap.start + (elements.length + 1)⟩) := by
  have hoffset : Reference.ofOffset? (UInt32.ofNat (roundUp heap.next * Reference.wordBytes)) =
      some (Reference.ofIndex heap.start (roundUp_even heap.next)) :=
    Reference.ofOffset?_eq_some_iff.mpr rfl
  have hroom : ¬ heap.arena.size - roundUp heap.next < elements.length + 1 := Nat.not_lt.mpr h
  rw [alloc]
  simp only
  rw [if_neg hroom, hoffset]
  rfl

end Heap

end TaggedWords
