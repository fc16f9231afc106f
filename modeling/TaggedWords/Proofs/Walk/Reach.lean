import TaggedWords.Walk.Render

/-!
# What a word reaches

A word unfolds by its references: below a tuple stand the elements of its record.  A word of the
unfolding is known by its path, the indices that lead to it.  Nothing stands below a reference whose
record is not wholly inside the arena, but the reference itself is reached.

Records may share words or hold themselves, so an unfolding may have no end.

* `Arena.WordAt`       the word at a path of the unfolding;
* `Arena.Reaches`      a word of the unfolding refers to a record;
* `Arena.LiesInside`   the count of a record and all its elements are inside the arena.
-/

namespace TaggedWords

namespace Arena

variable {arena : Arena} {w u x y : Word} {r s : Reference} {elements : List Word} {i : Nat}
  {path : List Nat}

/-! ## the unfolding of a word -/

/-- The word `x` is at a path of the unfolding of `w`. -/
inductive WordAt (arena : Arena) : Word → List Nat → Word → Prop where
  | here (w : Word) : WordAt arena w [] w
  | element {w u x : Word} {r : Reference} {elements : List Word} {i : Nat} {path : List Nat}
    (value : Value.decode w = .tuple r) (found : arena.record r = .ok elements)
    (element : elements[i]? = some u) (inside : WordAt arena u path x) :
    WordAt arena w (i :: path) x

theorem WordAt.unique (h : arena.WordAt w path x) (h' : arena.WordAt w path y) : x = y := by
  induction h with
  | here w =>
    cases h'
    rfl
  | element value found element _ ih =>
    cases h' with
    | element value' found' element' inside' =>
      cases value.symm.trans value'
      cases found.symm.trans found'
      cases element.symm.trans element'
      exact ih inside'

theorem WordAt.exists_element (h : arena.WordAt w (i :: path) x)
    (found : arena.layer w = .ok (.tuple elements)) :
    ∃ u, elements[i]? = some u ∧ arena.WordAt u path x := by
  cases h with
  | element value found' element inside =>
    cases found.symm.trans (layer_of_record value found')
    exact ⟨_, element, inside⟩

/-! ## the records that are reached -/

def Reaches (arena : Arena) (w : Word) (r : Reference) : Prop :=
  ∃ path x, arena.WordAt w path x ∧ Value.decode x = .tuple r

theorem reaches_of_decode (value : Value.decode w = .tuple r) : arena.Reaches w r :=
  ⟨[], w, .here w, value⟩

theorem Reaches.of_element (h : arena.Reaches u s) (value : Value.decode w = .tuple r)
    (found : arena.record r = .ok elements) (hu : u ∈ elements) : arena.Reaches w s := by
  obtain ⟨path, x, hat, hx⟩ := h
  obtain ⟨i, hi⟩ := List.getElem?_of_mem hu
  exact ⟨i :: path, x, .element value found hi hat, hx⟩

theorem not_reaches_of_atom {c : Atom} (value : Value.decode w = .atom c) :
    ¬ arena.Reaches w s := by
  rintro ⟨path, x, hat, hx⟩
  cases hat with
  | here => cases value.symm.trans hx
  | element value' => cases value.symm.trans value'

theorem reaches_iff_of_dangling {e : ArenaError} (value : Value.decode w = .tuple r)
    (missing : arena.record r = .error e) : arena.Reaches w s ↔ s = r := by
  constructor
  · rintro ⟨path, x, hat, hx⟩
    cases hat with
    | here =>
      cases value.symm.trans hx
      rfl
    | element value' found =>
      cases value.symm.trans value'
      cases missing.symm.trans found
  · rintro rfl
    exact reaches_of_decode value

theorem reaches_iff_of_record (value : Value.decode w = .tuple r)
    (found : arena.record r = .ok elements) :
    arena.Reaches w s ↔ s = r ∨ ∃ u ∈ elements, arena.Reaches u s := by
  constructor
  · rintro ⟨path, x, hat, hx⟩
    cases hat with
    | here =>
      cases value.symm.trans hx
      exact .inl rfl
    | element value' found' element inside =>
      cases value.symm.trans value'
      cases found.symm.trans found'
      exact .inr ⟨_, List.mem_of_getElem? element, _, x, inside, hx⟩
  · rintro (rfl | ⟨u, hu, h⟩)
    · exact reaches_of_decode value
    · exact h.of_element value found hu

/-! ## records inside the arena -/

/-- The count word is inside the arena, and so are as many words behind it as it says. -/
def LiesInside (arena : Arena) (r : Reference) : Prop :=
  ∃ count, arena.words[r.index]? = some count ∧ r.index + 1 + count.toNat ≤ arena.size

theorem liesInside_iff : arena.LiesInside r ↔ ∃ elements, arena.record r = .ok elements := by
  unfold LiesInside record
  cases arena.words[r.index]? with
  | none => simp
  | some count =>
    by_cases h : r.index + 1 + count.toNat ≤ arena.size <;> simp [h]

theorem not_liesInside_of_error {e : ArenaError} (missing : arena.record r = .error e) :
    ¬ arena.LiesInside r := by
  rw [liesInside_iff]
  rintro ⟨elements, found⟩
  rw [missing] at found
  contradiction

theorem exists_error_of_not_liesInside (h : ¬ arena.LiesInside r) :
    ∃ e, arena.record r = .error e := by
  cases hr : arena.record r with
  | error e => exact ⟨e, rfl⟩
  | ok elements => exact absurd (liesInside_iff.mpr ⟨elements, hr⟩) h

end Arena

end TaggedWords
