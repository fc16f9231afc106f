/-!
# Reading counts

A count is an optional plus sign followed by decimal digits, at most `Count.max`.  The characters
are read from left to right, and the first one that is no digit, or that makes the number too
large, decides the error.

* `Count.read`   the number that a text stands for;
* `Count.Error`  why a text is no count.
-/

namespace TaggedWords.Count

def max : Nat := 18446744073709551615

inductive Error where
  | empty
  /-- A character is no decimal digit, or a sign stands alone. -/
  | invalidDigit
  | tooLarge
  deriving DecidableEq, Repr

def Error.message : Error → String
  | .empty => "cannot parse integer from empty string"
  | .invalidDigit => "invalid digit found in string"
  | .tooLarge => "number too large to fit in target type"

/-- The number that follows when a digit is written behind `n`. -/
def extend (n : Nat) (c : Char) : Nat := 10 * n + (c.toNat - '0'.toNat)

/-- Reads the remaining digits of a number that starts with `n`. -/
def scan : Nat → List Char → Except Error Nat
  | n, [] => .ok n
  | n, c :: rest =>
    if c.isDigit then
      if extend n c ≤ max then scan (extend n c) rest else .error .tooLarge
    else .error .invalidDigit

def read : List Char → Except Error Nat
  | [] => .error .empty
  | ['+'] => .error .invalidDigit
  | '+' :: digits => scan 0 digits
  | digits => scan 0 digits

theorem le_extend (n : Nat) (c : Char) : n ≤ extend n c := by
  unfold extend
  omega

end TaggedWords.Count
