import TaggedWords.Word.Reference

/-!
# Values of words

`Value.decode` says what a word means, for every word; `Value.encode` writes a value back.  All
that is no tuple reference is an atom: it means the same in every arena.

Main names:

* `Atom`             an integer, a boolean, or an unrecognized word;
* `Value`            an atom or a tuple reference;
* `Value.decode`     the value of a word;
* `Value.encode`     the word of a value;
* `encode_decode`    decoding loses nothing.
-/

namespace TaggedWords

inductive Atom where
  | int (n : Int)
  | bool (b : Bool)
  /-- A word that matches no tag. -/
  | unknown (w : Word)
  deriving DecidableEq, Repr

/-- The word of an atom.  An integer is doubled, and what does not fit is cut off. -/
def Atom.encode : Atom → Word
  | .int n => Word.ofResidue (2 * n)
  | .bool b => Word.ofBool b
  | .unknown w => w

inductive Value where
  | atom (a : Atom)
  | tuple (r : Reference)
  deriving DecidableEq, Repr

namespace Value

def intMax : Int := 1073741823

def intMin : Int := -1073741824

/-- The value of a word.  The boolean words come before the tags. -/
def decode (w : Word) : Value :=
  if w = trueWord then .atom (.bool true)
  else if w = falseWord then .atom (.bool false)
  else if w.toNat % 2 = 0 then .atom (.int (w.signed / 2))
  else if h : w.toNat % 8 = 1 then .tuple ⟨w - tupleTag, by
    have hle : tupleTag ≤ w := by
      rw [UInt32.le_iff_toNat_le]
      change 1 ≤ w.toNat
      omega
    rw [UInt32.toNat_sub_of_le _ _ hle]
    change (w.toNat - 1) % 8 = 0
    omega⟩
  else .atom (.unknown w)

def encode : Value → Word
  | .atom a => a.encode
  | .tuple r => r.toWord

theorem ofResidue_half_signed {w : Word} (h : w.toNat % 2 = 0) :
    Word.ofResidue (2 * (w.signed / 2)) = w := by
  apply UInt32.toNat_inj.mp
  have hlt := w.toNat_lt
  have hr := Word.toNat_ofResidue (2 * (w.signed / 2))
  have he : (2 * (w.signed / 2)) % 4294967296 = w.toNat := by
    unfold Word.signed
    split <;> omega
  rw [he] at hr
  exact Int.ofNat.inj hr

/-- Decoding loses nothing: the value of a word has that word. -/
theorem encode_decode (w : Word) : (decode w).encode = w := by
  unfold decode
  split
  next h => exact h.symm
  next =>
    split
    next h => exact h.symm
    next =>
      split
      next h => exact ofResidue_half_signed h
      next =>
        split
        next => exact UInt32.sub_add_cancel w tupleTag
        next => rfl

theorem range_of_decode {w : Word} {n : Int} (h : decode w = .atom (.int n)) :
    intMin ≤ n ∧ n ≤ intMax := by
  have hlt := w.toNat_lt
  unfold decode at h
  split at h
  · cases h
  split at h
  · cases h
  split at h
  · cases h
    unfold Word.signed intMin intMax
    split <;> omega
  split at h <;> cases h

theorem decode_inj {v w : Word} : decode v = decode w ↔ v = w := by
  refine ⟨fun h => ?_, fun h => h ▸ rfl⟩
  rw [← encode_decode v, ← encode_decode w, h]

theorem encode_of_decode {w : Word} {a : Atom} (h : decode w = .atom a) : a.encode = w := by
  have hw := encode_decode w
  rw [h] at hw
  exact hw

theorem toWord_of_decode {w : Word} {r : Reference} (h : decode w = .tuple r) : r.toWord = w := by
  have hw := encode_decode w
  rw [h] at hw
  exact hw

theorem decode_toWord (r : Reference) : decode r.toWord = .tuple r := by
  have hnat := r.toNat_toWord
  have haligned := r.offset_mod_eight
  have htrue : r.toWord ≠ trueWord := by
    intro h
    rw [h, toNat_trueWord] at hnat
    omega
  have hfalse : r.toWord ≠ falseWord := by
    intro h
    rw [h, toNat_falseWord] at hnat
    omega
  have hoffset : r.toWord - tupleTag = r.offset := UInt32.add_sub_cancel r.offset tupleTag
  rw [decode, if_neg htrue, if_neg hfalse, if_neg (by omega), dif_pos (by omega)]
  exact congrArg Value.tuple ((Reference.mk.injEq ..).mpr hoffset)

end Value

end TaggedWords
