import TaggedWords.Word.Basic

/-!
# Hexadecimal numerals

Offsets are written with as many digits as they need, words always with eight.

* `Hex.offset`  `0x` and the digits of a number;
* `Hex.word`    `0x` and the eight digits of a word.
-/

namespace TaggedWords.Hex

/-- The lower-case hexadecimal digits of a number, at least one. -/
def digits (n : Nat) : List Char := Nat.toDigits 16 n

def offset (n : Nat) : String := "0x" ++ String.ofList (digits n)

/-- A word in hexadecimal, filled up with zeros to eight digits. -/
def word (w : Word) : String := "0x" ++ String.ofList ((digits w.toNat).leftpad 8 '0')

theorem length_digits_le (w : Word) : (digits w.toNat).length ≤ 8 := by
  have h := w.toNat_lt
  rw [digits, Nat.length_toDigits_le_iff (by decide) (by decide)]
  exact h

theorem length_padded (w : Word) : ((digits w.toNat).leftpad 8 '0').length = 8 := by
  rw [List.length_leftpad]
  have := length_digits_le w
  omega

end TaggedWords.Hex
