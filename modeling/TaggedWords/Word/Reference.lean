import TaggedWords.Word.Basic

/-!
# References to tuple records

A reference is the byte offset of a record in the arena.  Records start at multiples of eight
bytes, so the low three bits of an offset are free and carry the tag in the reference's word.

Main names:

* `Reference`            an aligned byte offset;
* `Reference.ofOffset?`  the reference at an offset, if the offset is aligned;
* `Reference.ofIndex`    the reference to the record that starts at an even word index;
* `Reference.index`      the index of the record's first word;
* `Reference.toWord`     the tagged word.
-/

namespace TaggedWords

/-- Records start at multiples of this many bytes. -/
def Reference.alignment : Nat := 8

structure Reference where
  offset : Word
  aligned : offset.toNat % Reference.alignment = 0
  deriving DecidableEq, Repr

namespace Reference

def wordBytes : Nat := 4

def ofOffset? (offset : Word) : Option Reference :=
  if h : offset.toNat % alignment = 0 then some ⟨offset, h⟩ else none

theorem offset_mod_eight (r : Reference) : r.offset.toNat % 8 = 0 := r.aligned

theorem ofOffset?_eq_some_iff {offset : Word} {r : Reference} :
    ofOffset? offset = some r ↔ r.offset = offset := by
  obtain ⟨o, ho⟩ := r
  by_cases h : offset.toNat % alignment = 0
  · simp [ofOffset?, h, eq_comm]
  · have hne : o ≠ offset := fun e => h (e ▸ ho)
    simp [ofOffset?, h, hne]

def index (r : Reference) : Nat := r.offset.toNat / wordBytes

/-- The reference to the record that starts at the even word index `i`. -/
def ofIndex (i : Nat) (even : i % 2 = 0) : Reference where
  offset := UInt32.ofNat (i * wordBytes)
  aligned := by
    rw [UInt32.toNat_ofNat', wordBytes, alignment]
    omega

def toWord (r : Reference) : Word := r.offset + tupleTag

theorem toNat_toWord (r : Reference) : r.toWord.toNat = r.offset.toNat + 1 := by
  have hlt := r.offset.toNat_lt
  have ha := r.offset_mod_eight
  rw [toWord, UInt32.toNat_add]
  change (r.offset.toNat + 1) % 2 ^ 32 = _
  omega

theorem index_even (r : Reference) : r.index % 2 = 0 := by
  have ha := r.offset_mod_eight
  rw [index, wordBytes]
  omega

theorem index_ofIndex {i : Nat} (even : i % 2 = 0) (h : i < 1073741824) :
    (ofIndex i even).index = i := by
  have hlt : i * wordBytes < 2 ^ 32 := by rw [wordBytes]; omega
  rw [index, ofIndex, UInt32.toNat_ofNat_of_lt' hlt, wordBytes]
  omega

theorem ofIndex_index (r : Reference) : ofIndex r.index r.index_even = r := by
  have ha := r.offset_mod_eight
  have hback : r.offset.toNat / wordBytes * wordBytes = r.offset.toNat := by
    rw [wordBytes]
    omega
  have hoffset : UInt32.ofNat (r.offset.toNat / wordBytes * wordBytes) = r.offset := by
    rw [hback, UInt32.ofNat_toNat]
  exact (mk.injEq ..).mpr hoffset

end Reference

end TaggedWords
