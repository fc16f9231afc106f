import TaggedWords.Failure.ArenaError
import TaggedWords.Word.Reference

/-!
# The arena

An arena is a fixed block of words.  A tuple record in it is a count word, followed by that many
elements:

    count n | element 0 | element 1 | … | element n-1

Nothing is assumed of an arena's words.  Records may share words, refer to each other in circles,
or claim elements past the end; looking a record up reports the last case.

* `Arena`             a block of words;
* `Arena.ofSize`      an arena of zeros, for every size between `minWords` and `maxWords`;
* `Arena.record`      the elements of the record at a reference;
* `record_eq_ok_iff`  a record is found where its words stand;
* `Arena.write`       overwrites consecutive words.
-/

namespace TaggedWords

structure Arena where
  words : Array Word
  deriving DecidableEq, Repr

namespace Arena

def minWords : Nat := 2

/-- The most words whose byte offsets fit into a word. -/
def maxWords : Nat := 1073741824

def defaultWords : Nat := 100000

def size (arena : Arena) : Nat := arena.words.size

def checkSize (words : Nat) : Except ArenaError Unit :=
  if words < minWords then .error (.tooSmall words)
  else if maxWords < words then .error (.tooLarge words maxWords)
  else .ok ()

theorem checkSize_eq_ok_iff (words : Nat) :
    checkSize words = .ok () ↔ minWords ≤ words ∧ words ≤ maxWords := by
  unfold checkSize
  split
  · simp only [reduceCtorEq, false_iff]
    omega
  · split
    · simp only [reduceCtorEq, false_iff]
      omega
    · simp only [true_iff]
      omega

def zeros (words : Nat) : Arena := ⟨Array.replicate words 0⟩

@[simp] theorem size_zeros (words : Nat) : (zeros words).size = words :=
  Array.size_replicate

def ofSize (words : Nat) : Except ArenaError Arena :=
  (checkSize words).map fun _ => zeros words

/-- The word at an index, zero outside the arena. -/
def read (arena : Arena) (index : Nat) : Word := arena.words.getD index 0

def readMany (arena : Arena) (index count : Nat) : List Word :=
  (List.range count).map fun i => arena.read (index + i)

/-- Overwrites consecutive words from an index on.  Words past the end are dropped. -/
def write (arena : Arena) : Nat → List Word → Arena
  | _, [] => arena
  | index, word :: rest => write ⟨arena.words.setIfInBounds index word⟩ (index + 1) rest

@[simp] theorem size_write (arena : Arena) (index : Nat) (words : List Word) :
    (arena.write index words).size = arena.size := by
  induction words generalizing arena index with
  | nil => rfl
  | cons word rest ih =>
    rw [write, ih]
    exact Array.size_setIfInBounds

/-- Writing changes the words at the indices written, and no others. -/
theorem getElem?_write (arena : Arena) (index : Nat) (words : List Word) (i : Nat) :
    (arena.write index words).words[i]? =
      if index ≤ i ∧ i < index + words.length ∧ i < arena.size then words[i - index]?
      else arena.words[i]? := by
  induction words generalizing arena index with
  | nil =>
    rw [if_neg (by rw [List.length_nil]; omega)]
    rfl
  | cons word rest ih =>
    have hsize : (⟨arena.words.setIfInBounds index word⟩ : Arena).size = arena.size :=
      Array.size_setIfInBounds
    rw [write, ih, hsize, List.length_cons, Array.getElem?_setIfInBounds]
    by_cases hi : index = i
    · subst hi
      rw [if_neg (by omega), if_pos rfl, Nat.sub_self]
      by_cases hlt : index < arena.size
      · have hlt' : index < arena.words.size := hlt
        rw [if_pos hlt', if_pos ⟨Nat.le_refl _, by omega, hlt⟩]
        rfl
      · have hge : ¬ index < arena.words.size := hlt
        rw [if_neg hge, if_neg (fun h => hlt h.2.2), Array.getElem?_eq_none (Nat.le_of_not_lt hge)]
    · rw [if_neg hi]
      by_cases hin : index + 1 ≤ i ∧ i < index + 1 + rest.length ∧ i < arena.size
      · have hsub : i - index = i - (index + 1) + 1 := by omega
        rw [if_pos hin, if_pos (by omega), hsub, List.getElem?_cons_succ]
      · rw [if_neg hin, if_neg (by omega)]

/-- The elements of the record at a reference, which has to lie wholly inside the arena. -/
def record (arena : Arena) (r : Reference) : Except ArenaError (List Word) :=
  match arena.words[r.index]? with
  | none => .error (.outOfBounds r.offset arena.size)
  | some count =>
    let first := r.index + 1
    if first + count.toNat ≤ arena.size then
      .ok (arena.words.extract first (first + count.toNat)).toList
    else .error (.outOfBounds r.offset arena.size)

section
variable {arena : Arena} {r : Reference} {elements : List Word}

theorem le_size_of_words {count : Word} (hcount : arena.words[r.index]? = some count)
    (helements : ∀ i, i < elements.length → arena.words[r.index + 1 + i]? = elements[i]?) :
    r.index + 1 + elements.length ≤ arena.size := by
  obtain ⟨hindex, -⟩ := Array.getElem?_eq_some_iff.mp hcount
  rw [size]
  rcases Nat.eq_zero_or_pos elements.length with hzero | hpos
  · omega
  · have hlast := helements (elements.length - 1) (by omega)
    rw [List.getElem?_eq_getElem (by omega)] at hlast
    obtain ⟨hinside, -⟩ := Array.getElem?_eq_some_iff.mp hlast
    omega

theorem record_eq_ok_iff : arena.record r = .ok elements ↔
    ∃ count, arena.words[r.index]? = some count ∧ count.toNat = elements.length ∧
      ∀ i, i < elements.length → arena.words[r.index + 1 + i]? = elements[i]? := by
  -- as many words behind the count as it says
  have hextract : ∀ count, r.index + 1 + count ≤ arena.size → ∀ i,
      (arena.words.extract (r.index + 1) (r.index + 1 + count)).toList[i]? =
        if i < count then arena.words[r.index + 1 + i]? else none := by
    intro count hle i
    rw [size] at hle
    rw [Array.getElem?_toList, Array.getElem?_extract, Nat.min_eq_left hle, Nat.add_sub_cancel_left]
  constructor
  · intro h
    unfold record at h
    split at h
    · contradiction
    · next count hcount =>
      simp only at h
      split at h
      · next hle =>
        cases h
        have hlength : (arena.words.extract (r.index + 1)
            (r.index + 1 + count.toNat)).toList.length = count.toNat := by
          rw [size] at hle
          rw [Array.length_toList, Array.size_extract]
          omega
        refine ⟨count, hcount, hlength.symm, fun i hi => ?_⟩
        rw [hlength] at hi
        rw [hextract _ hle, if_pos hi]
      · contradiction
  · rintro ⟨count, hcount, hlength, helements⟩
    have hle : r.index + 1 + count.toNat ≤ arena.size := by
      rw [hlength]
      exact le_size_of_words hcount helements
    rw [record, hcount]
    simp only
    rw [if_pos hle]
    congr 1
    apply List.ext_getElem?
    intro i
    rw [hextract _ hle]
    split
    · next hi => exact helements i (by omega)
    · rw [List.getElem?_eq_none (by omega)]

theorem le_size_of_record (h : arena.record r = .ok elements) :
    r.index + 1 + elements.length ≤ arena.size := by
  obtain ⟨count, hcount, -, helements⟩ := record_eq_ok_iff.mp h
  exact le_size_of_words hcount helements

theorem length_record_lt (h : arena.record r = .ok elements) : elements.length < arena.size := by
  have hsize := le_size_of_record h
  omega

theorem index_lt_of_record (h : arena.record r = .ok elements) : r.index < arena.size := by
  have hsize := le_size_of_record h
  omega

end

theorem record_eq_error {arena : Arena} {r : Reference} {e : ArenaError}
    (h : arena.record r = .error e) : e = .outOfBounds r.offset arena.size := by
  unfold record at h
  split at h
  · cases h
    rfl
  · simp only at h
    split at h
    · contradiction
    · cases h
      rfl

end Arena

end TaggedWords
