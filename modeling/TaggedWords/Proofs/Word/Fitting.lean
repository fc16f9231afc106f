import Mathlib.Algebra.Group.Int.Defs
import Mathlib.Algebra.Group.Nat.Defs
import TaggedWords.Word.Integer

/-!
# The values that words hold

Every word has a value, but not every value has a word.  An integer of more than 31 bits loses its
upper bits, and an unrecognized word that has a meaning takes on this meaning.  All other values fit:
they are read back from their words.

* `Atom.Fits`, `Value.Fits`   what fits into a word;
* `toNat_and_tagMask`         the bits of the tag, as a number;
* `decode_encode_int`         an integer is reduced modulo `2 ^ 31`;
* `decode_eq_unknown_iff`     the words without a meaning;
* `decode_encode_iff`         what is read back as it was;
* `Word.ofInteger_of_fits`, `Word.ofInteger_of_not_fits`   the integers that have a word;
* `values_match_words`        the values that fit and the words, one to one.
-/

namespace TaggedWords

/-- An integer of 31 bits, a boolean, or another odd word without the tag of a reference. -/
def Atom.Fits : Atom → Prop
  | .int n => -2 ^ 30 ≤ n ∧ n ≤ 2 ^ 30 - 1
  | .bool _ => True
  | .unknown w =>
    w.toNat % 2 = 1 ∧ w ≠ trueWord ∧ w ≠ falseWord ∧ w &&& tagMask ≠ tupleTag

def Value.Fits : Value → Prop
  | .atom a => a.Fits
  | .tuple _ => True

/-! ## the tag -/

theorem toNat_and_tagMask (w : Word) : (w &&& tagMask).toNat = w.toNat % 8 := by
  rw [UInt32.toNat_and]
  exact Nat.and_two_pow_sub_one_eq_mod w.toNat 3

theorem and_tagMask_eq_tupleTag_iff {w : Word} : w &&& tagMask = tupleTag ↔ w.toNat % 8 = 1 := by
  rw [← UInt32.toNat_inj, toNat_and_tagMask]
  rfl

namespace Value

/-! ## integers -/

/-- The word of an integer is twice the integer, modulo `2 ^ 32` and with the sign kept. -/
theorem signed_ofResidue_double (n : Int) :
    (Word.ofResidue (2 * n)).signed = 2 * n.bmod (2 ^ 31) := by
  have hnat := Word.toNat_ofResidue (2 * n)
  have hdouble : 2 * n % 4294967296 = 2 * (n % 2147483648) :=
    Int.mul_emod_mul_of_pos n 2147483648 (by decide)
  have hmod : n.bmod (2 ^ 31) =
      if n % 2147483648 < 1073741824 then n % 2147483648 else n % 2147483648 - 2147483648 := rfl
  rw [hmod, Word.signed]
  split <;> split <;> omega

theorem decode_encode_int (n : Int) :
    decode (encode (.atom (.int n))) = .atom (.int (n.bmod (2 ^ 31))) := by
  have hnat := Word.toNat_ofResidue (2 * n)
  have heven : (Word.ofResidue (2 * n)).toNat % 2 = 0 := by omega
  have htrue : Word.ofResidue (2 * n) ≠ trueWord := by
    intro h
    rw [h, toNat_trueWord] at heven
    contradiction
  have hfalse : Word.ofResidue (2 * n) ≠ falseWord := by
    intro h
    rw [h, toNat_falseWord] at heven
    contradiction
  show decode (Word.ofResidue (2 * n)) = _
  rw [decode, if_neg htrue, if_neg hfalse, if_pos heven, signed_ofResidue_double,
    Int.mul_ediv_cancel_left _ (by decide)]

theorem fits_bmod (n : Int) : Atom.Fits (.int (n.bmod (2 ^ 31))) := by
  have hlow := Int.le_bmod (x := n) (m := 2 ^ 31) (by decide)
  have hhigh := Int.bmod_lt (x := n) (m := 2 ^ 31) (by decide)
  show -2 ^ 30 ≤ _ ∧ _ ≤ (2 ^ 30 - 1 : Int)
  omega

theorem bmod_eq_self_iff (n : Int) : n.bmod (2 ^ 31) = n ↔ Atom.Fits (.int n) := by
  constructor
  · intro h
    rw [← h]
    exact fits_bmod n
  · rintro ⟨hlow, hhigh⟩
    exact Int.bmod_eq_of_le (by omega) (by omega)

/-! ## words without a meaning -/

theorem decode_eq_unknown_iff {w : Word} :
    decode w = .atom (.unknown w) ↔ Atom.Fits (.unknown w) := by
  show _ ↔ w.toNat % 2 = 1 ∧ w ≠ trueWord ∧ w ≠ falseWord ∧ ¬ w &&& tagMask = tupleTag
  rw [and_tagMask_eq_tupleTag_iff, decode]
  split
  next h => simp [h]
  next htrue =>
    split
    next h => simp [h]
    next hfalse =>
      split
      next heven => simp [heven]
      next hodd =>
        split
        next htag => simp [htag]
        next htag =>
          have hone : w.toNat % 2 = 1 := by omega
          simp [htrue, hfalse, hone, htag]

/-! ## reading values back -/

/-- **The values that are read back as they were are those that fit.** -/
theorem decode_encode_iff (v : Value) : decode v.encode = v ↔ v.Fits := by
  cases v with
  | tuple r => exact iff_of_true (decode_toWord r) trivial
  | atom a =>
    cases a with
    | int n =>
      rw [decode_encode_int, Value.atom.injEq, Atom.int.injEq]
      exact bmod_eq_self_iff n
    | bool b =>
      refine iff_of_true ?_ trivial
      cases b <;> rfl
    | unknown w => exact decode_eq_unknown_iff

theorem fits_decode (w : Word) : (decode w).Fits := by
  rw [← decode_encode_iff, encode_decode]

end Value

/-! ## words of integers -/

theorem Word.ofInteger_of_fits {n : Int} (h : Atom.Fits (.int n)) :
    ofInteger n = .ok (Value.encode (.atom (.int n))) :=
  if_pos h

theorem Word.ofInteger_of_not_fits {n : Int} (h : ¬ Atom.Fits (.int n)) :
    ofInteger n = .error .overflow :=
  if_neg h

/-! ## references -/

namespace Reference

theorem exists_ofOffset?_iff (offset : Word) :
    (∃ r, ofOffset? offset = some r) ↔ offset.toNat % 8 = 0 := by
  constructor
  · rintro ⟨r, hr⟩
    rw [← ofOffset?_eq_some_iff.mp hr]
    exact r.offset_mod_eight
  · intro h
    exact ⟨_, dif_pos h⟩

theorem of_ofOffset? {offset : Word} {r : Reference} (h : ofOffset? offset = some r) :
    Value.decode r.toWord = .tuple r ∧ r.index % 2 = 0 ∧ r.index = offset.toNat / 4 := by
  refine ⟨Value.decode_toWord r, r.index_even, ?_⟩
  rw [index, ofOffset?_eq_some_iff.mp h, wordBytes]

end Reference

/-- **Words and the values that fit into them correspond one to one.**  Of an integer that does not
fit, what it is modulo `2 ^ 31` is read back. -/
theorem Value.values_match_words :
    (∀ w, (decode w).encode = w ∧ (decode w).Fits) ∧
    (∀ v, decode v.encode = v ↔ v.Fits) ∧
    (∀ n, decode (encode (.atom (.int n))) = .atom (.int (n.bmod (2 ^ 31))) ∧
      Atom.Fits (.int (n.bmod (2 ^ 31)))) ∧
    (∀ w, decode (encode (.atom (.unknown w))) = decode w) ∧
    (∀ n, (Atom.Fits (.int n) → Word.ofInteger n = .ok (encode (.atom (.int n)))) ∧
      (¬ Atom.Fits (.int n) → Word.ofInteger n = .error .overflow)) ∧
    (∀ offset, ((∃ r, Reference.ofOffset? offset = some r) ↔ offset.toNat % 8 = 0) ∧
      ∀ r, Reference.ofOffset? offset = some r →
        decode r.toWord = .tuple r ∧ r.index % 2 = 0 ∧ r.index = offset.toNat / 4) :=
  ⟨fun w => ⟨encode_decode w, fits_decode w⟩, decode_encode_iff,
    fun n => ⟨decode_encode_int n, fits_bmod n⟩, fun _ => rfl,
    fun _ => ⟨Word.ofInteger_of_fits, Word.ofInteger_of_not_fits⟩,
    fun offset => ⟨Reference.exists_ofOffset?_iff offset, fun _ => Reference.of_ofOffset?⟩⟩

/-- The first integer without a word is read back as the smallest one with a word. -/
theorem Value.values_match_words_at_limits :
    Word.ofInteger (2 ^ 30) = .error .overflow ∧
      decode (encode (.atom (.int (2 ^ 30)))) = .atom (.int (-2 ^ 30)) ∧
      ∃ r, Reference.ofOffset? 4294967288 = some r ∧ decode r.toWord = .tuple r ∧
        r.index = 1073741822 := by
  obtain ⟨-, -, hinteger, -, hword, hreference⟩ := values_match_words
  have hfits : ¬ Atom.Fits (.int (2 ^ 30)) := fun h => absurd h.2 (by decide)
  obtain ⟨hexists, hmeans⟩ := hreference 4294967288
  obtain ⟨r, hr⟩ := hexists.mpr rfl
  obtain ⟨hdecode, -, hindex⟩ := hmeans r hr
  exact ⟨(hword _).2 hfits, (hinteger _).1, r, hr, hdecode, hindex⟩

end TaggedWords
