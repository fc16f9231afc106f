/-!
# Tagged words

A program's values are single 32-bit words.  The low bits tell the kinds apart:

* an even word holds a signed 31-bit integer in its upper bits;
* a word whose low three bits are `001` refers to a tuple record;
* `trueWord` and `falseWord` are the two booleans;
* every other word is unrecognized.

Main names:

* `Word`                  a tagged word;
* `trueWord`, `falseWord` the boolean words, and `Word.ofBool`;
* `Word.signed`           the word read in two's complement.
-/

namespace TaggedWords

abbrev Word := UInt32

/-- The word of `true`: every bit set. -/
def trueWord : Word := 0xFFFFFFFF

/-- The word of `false`: every bit set except the highest. -/
def falseWord : Word := 0x7FFFFFFF

def tagMask : Word := 7

def tupleTag : Word := 1

namespace Word

def ofBool : Bool → Word
  | true => trueWord
  | false => falseWord

@[simp] theorem ofBool_true : ofBool true = trueWord := rfl

@[simp] theorem ofBool_false : ofBool false = falseWord := rfl

theorem ofBool_inj {b c : Bool} : ofBool b = ofBool c ↔ b = c := by
  cases b <;> cases c <;> decide

/-- The word read as a signed number in two's complement. -/
def signed (w : Word) : Int :=
  if w.toNat < 2147483648 then w.toNat else w.toNat - 4294967296

/-- The word that a number leaves modulo `2 ^ 32`. -/
def ofResidue (n : Int) : Word :=
  UInt32.ofNat (n % 4294967296).toNat

theorem toNat_ofResidue (n : Int) : ((ofResidue n).toNat : Int) = n % 4294967296 := by
  have h : (n % 4294967296).toNat < 4294967296 := by omega
  rw [ofResidue, UInt32.toNat_ofNat_of_lt' h]
  omega

end Word

@[simp] theorem toNat_trueWord : trueWord.toNat = 4294967295 := rfl

@[simp] theorem toNat_falseWord : falseWord.toNat = 2147483647 := rfl

end TaggedWords
