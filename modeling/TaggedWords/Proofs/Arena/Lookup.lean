import Mathlib.Algebra.Group.Nat.Defs
import TaggedWords.Proofs.Walk.Reach

/-!
# Looking a record up

A record is found exactly if its count word is inside the arena and as many words stand behind it as
it says.  The last of these may be the last word of the arena, and so may the count word of a record
without elements.  A count is any word, so it can exceed every arena; but where the record would end
is still far below the largest index.

* `Arena.Window`            consecutive words of an arena, read one by one and in both directions;
* `window_of_record`        the elements of a record are the window behind its count word;
* `record_of_not_liesInside`   else the offset and the size of the arena are reported;
* `stop_lt_two_pow`         no index of a record wraps around;
* `record_exact_at_boundaries`   all of this together.
-/

namespace TaggedWords

namespace Arena

variable {arena : Arena} {r : Reference} {elements : List Word} {count : Word} {first n : Nat}

/-! ## words read from an arena -/

/-- The elements are `n` consecutive words of the arena, from the index `first` on: so many, the
right one at each index and none at any other, in order, and in reverse order backwards. -/
structure Window (arena : Arena) (first n : Nat) (elements : List Word) : Prop where
  length : elements.length = n
  get : ∀ i, i < n → ∃ w, arena.words[first + i]? = some w ∧ elements[i]? = some w
  get_none : ∀ i, ¬ i < n → elements[i]? = none
  forwards : elements.map some = (List.range n).map fun i => arena.words[first + i]?
  backwards : elements.reverse.map some =
    (List.range n).map fun i => arena.words[first + (n - 1 - i)]?

theorem map_some_eq_map_range {f : Nat → Option Word} (length : elements.length = n)
    (get : ∀ i, i < n → elements[i]? = f i) : elements.map some = (List.range n).map f := by
  apply List.ext_getElem?
  intro i
  rw [List.getElem?_map, List.getElem?_map]
  by_cases hi : i < n
  · have hget : elements[i]? = some elements[i] := List.getElem?_eq_getElem (by omega)
    rw [List.getElem?_range hi, Option.map_some, ← get i hi, hget]
    rfl
  · rw [List.getElem?_eq_none (by omega), List.getElem?_eq_none (by simp; omega)]
    rfl

theorem window_of_get (length : elements.length = n)
    (get : ∀ i, i < n → arena.words[first + i]? = elements[i]?) :
    arena.Window first n elements := by
  refine ⟨length, ?_, ?_, ?_, ?_⟩
  · intro i hi
    have hget : elements[i]? = some elements[i] := List.getElem?_eq_getElem (by omega)
    exact ⟨elements[i], (get i hi).trans hget, hget⟩
  · intro i hi
    exact List.getElem?_eq_none (by omega)
  · exact map_some_eq_map_range length fun i hi => (get i hi).symm
  · apply map_some_eq_map_range
    · rw [List.length_reverse, length]
    · intro i hi
      -- counted from the other end
      rw [List.getElem?_reverse (by omega), length, get (n - 1 - i) (by omega)]

/-! ## records -/

theorem window_of_record (found : arena.record r = .ok elements)
    (counted : arena.words[r.index]? = some count) :
    arena.Window (r.index + 1) count.toNat elements := by
  obtain ⟨count', hcount, hlength, helements⟩ := record_eq_ok_iff.mp found
  cases counted.symm.trans hcount
  exact window_of_get hlength.symm fun i hi => helements i (by omega)

theorem record_of_not_liesInside (h : ¬ arena.LiesInside r) :
    arena.record r = .error (.outOfBounds r.offset arena.size) := by
  obtain ⟨e, missing⟩ := exists_error_of_not_liesInside h
  rw [missing, record_eq_error missing]

/-- Where a record would end is no index that wraps around, whatever its count word says. -/
theorem stop_lt_two_pow (r : Reference) (count : Word) :
    r.index + 1 + count.toNat < 2 ^ 64 := by
  have hoffset := r.offset.toNat_lt
  have hcount := count.toNat_lt
  unfold Reference.index Reference.wordBytes
  omega

theorem record_of_zero (counted : arena.words[r.index]? = some 0) : arena.record r = .ok [] := by
  refine record_eq_ok_iff.mpr ⟨0, counted, rfl, fun i hi => ?_⟩
  exact absurd hi (Nat.not_lt_zero i)

/-- **A record is found exactly if it lies inside the arena, up to the last word**, and no index
wraps around meanwhile.  Its elements are the words behind its count. -/
theorem record_exact_at_boundaries (arena : Arena) (r : Reference) :
    ((∃ elements, arena.record r = .ok elements) ↔
      ∃ count, arena.words[r.offset.toNat / 4]? = some count ∧
        r.offset.toNat / 4 + 1 + count.toNat ≤ arena.words.size) ∧
    (∀ count : Word, r.offset.toNat / 4 + 1 + count.toNat < 2 ^ 64) ∧
    (∀ elements, arena.record r = .ok elements →
      ∃ count, arena.words[r.offset.toNat / 4]? = some count ∧
        arena.Window (r.offset.toNat / 4 + 1) count.toNat elements) ∧
    ((¬ ∃ elements, arena.record r = .ok elements) →
      arena.record r = .error (.outOfBounds r.offset arena.words.size)) ∧
    (∀ count, arena.words[r.offset.toNat / 4]? = some count →
      r.offset.toNat / 4 + 1 + count.toNat = arena.words.size →
      ∃ elements, arena.record r = .ok elements) ∧
    (r.offset.toNat / 4 + 1 = arena.words.size → arena.words[r.offset.toNat / 4]? = some 0 →
      arena.record r = .ok []) := by
  have hfound : (∃ elements, arena.record r = .ok elements) ↔ arena.LiesInside r :=
    liesInside_iff.symm
  refine ⟨hfound, stop_lt_two_pow r, fun elements found => ?_, fun h => ?_, ?_, ?_⟩
  · obtain ⟨count, counted, -, -⟩ := record_eq_ok_iff.mp found
    exact ⟨count, counted, window_of_record found counted⟩
  · rw [hfound] at h
    exact record_of_not_liesInside h
  · intro count counted hstop
    exact hfound.mpr ⟨count, counted, Nat.le_of_eq hstop⟩
  · intro _ counted
    exact record_of_zero counted

/-- In an arena of seven words, the record at the fifth word ends with the last one and the record
at the last word is empty; behind a count that is one too large, the first record is missing. -/
theorem record_exact_at_boundaries_last_word :
    (⟨#[7, 0, 0, 0, 2, 9, 0]⟩ : Arena).record ⟨16, rfl⟩ = .ok [9, 0] ∧
      (⟨#[7, 0, 0, 0, 2, 9, 0]⟩ : Arena).record ⟨24, rfl⟩ = .ok [] ∧
      (⟨#[7, 0, 0, 0, 2, 9, 0]⟩ : Arena).record ⟨0, rfl⟩ = .error (.outOfBounds 0 7) := by
  refine ⟨?_, ?_, ?_⟩
  · obtain ⟨-, -, hwindow, -, hlast, -⟩ :=
      record_exact_at_boundaries ⟨#[7, 0, 0, 0, 2, 9, 0]⟩ ⟨16, rfl⟩
    obtain ⟨elements, found⟩ := hlast 2 rfl rfl
    obtain ⟨count, counted, window⟩ := hwindow elements found
    cases counted
    have hforwards : elements.map some = [some 9, some 0] := window.forwards
    have helements : elements = [9, 0] := by simpa [List.map_eq_cons_iff] using hforwards
    rw [found, helements]
  · obtain ⟨-, -, -, -, -, hempty⟩ :=
      record_exact_at_boundaries ⟨#[7, 0, 0, 0, 2, 9, 0]⟩ ⟨24, rfl⟩
    exact hempty rfl rfl
  · obtain ⟨hiff, -, -, hmissing, -, -⟩ :=
      record_exact_at_boundaries ⟨#[7, 0, 0, 0, 2, 9, 0]⟩ ⟨0, rfl⟩
    refine hmissing fun hfound => ?_
    obtain ⟨count, counted, hle⟩ := hiff.mp hfound
    cases counted
    exact absurd hle (by decide)

end Arena

end TaggedWords
