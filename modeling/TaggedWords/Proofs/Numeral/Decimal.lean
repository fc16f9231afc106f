import Mathlib.Data.List.Basic

/-!
# Decimal numerals

An integer is written with no more digits than it needs: no zero stands in front of another digit,
and zero has no sign.  What such digits stand for is read from left to right, each digit behind ten
times what was read before.

* `Decimal.IsNumeral`             the digits of a natural number;
* `Decimal.IsInteger`             the digits of an integer, behind a minus sign if it is negative;
* `Decimal.isInteger_toString`    integers are written so;
* `Decimal.numbers`               the numbers whose digits stand in a text.
-/

namespace TaggedWords.Decimal

/-- The digits of a number, without leading zeros. -/
structure IsNumeral (digits : List Char) (n : Nat) : Prop where
  isDigit : ∀ c ∈ digits, c.isDigit = true
  ne_nil : digits ≠ []
  leading : digits.head? = some '0' → digits = ['0']
  value : Nat.ofDigitChars 10 digits 0 = n

/-- The digits of an integer, behind a minus sign if it is negative. -/
inductive IsInteger : List Char → Int → Prop where
  | ofNat {digits : List Char} {n : Nat} (numeral : IsNumeral digits n) : IsInteger digits n
  | negative {digits : List Char} {n : Nat} (numeral : IsNumeral digits n) (pos : 0 < n) :
    IsInteger ('-' :: digits) (-n)

theorem head?_toDigits (n : Nat) (hn : 0 < n) : (Nat.toDigits 10 n).head? ≠ some '0' := by
  induction n using Nat.strongRecOn with
  | ind n ih =>
    by_cases h : n < 10
    · have hall : ∀ d < 10, 0 < d → [d.digitChar].head? ≠ some '0' := by decide
      rw [Nat.toDigits_of_lt_base h]
      exact hall n h hn
    · have hfront : (Nat.toDigits 10 (n / 10)).head? ≠ some '0' := ih (n / 10) (by omega) (by omega)
      rw [Nat.toDigits_of_base_le (by decide) (by omega),
        List.head?_append_of_ne_nil _ Nat.toDigits_ne_nil]
      exact hfront

theorem isNumeral_toDigits (n : Nat) : IsNumeral (Nat.toDigits 10 n) n where
  isDigit c hc := Nat.isDigit_of_mem_toDigits (by decide) (by decide) hc
  ne_nil := Nat.toDigits_ne_nil
  leading h := by
    by_cases hn : n = 0
    · rw [hn, Nat.toDigits_zero]
    · exact absurd h (head?_toDigits n (Nat.pos_of_ne_zero hn))
  value := Nat.ofDigitChars_ten_toDigits

theorem isInteger_toString (n : Int) : IsInteger (toString n).toList n := by
  cases n with
  | ofNat m =>
    show IsInteger m.repr.toList m
    rw [Nat.toList_repr]
    exact .ofNat (isNumeral_toDigits m)
  | negSucc m =>
    have htext : (toString (Int.negSucc m)).toList = '-' :: Nat.toDigits 10 (m + 1) := by
      show ("-" ++ (m + 1).repr).toList = _
      rw [String.toList_append, Nat.toList_repr]
      rfl
    rw [htext]
    exact .negative (isNumeral_toDigits (m + 1)) (Nat.succ_pos m)

/-! ## numbers inside a text -/

def numbers (cs : List Char) : List Nat :=
  ((cs.splitOnP fun c => !c.isDigit).filter fun digits => !digits.isEmpty).map fun digits =>
    Nat.ofDigitChars 10 digits 0

/-- Whether a text keeps numbers apart: there is something in it, and no digit. -/
def isSeparator (cs : List Char) : Bool := !cs.isEmpty && cs.all fun c => !c.isDigit

variable {s : List Char} {c : Char}

theorem numbers_append_cons (h : c.isDigit = false) (xs ys : List Char) :
    numbers (xs ++ c :: ys) = numbers xs ++ numbers ys := by
  have hsplit := List.splitOnP_append_cons (p := fun c => !c.isDigit) xs ys (by rw [h]; rfl)
  simp only [numbers, hsplit, List.filter_append, List.map_append]

theorem numbers_append_of_no_digit (h : ∀ c ∈ s, c.isDigit = false) (ys : List Char) :
    numbers (s ++ ys) = numbers ys := by
  induction s with
  | nil => rfl
  | cons c s ih =>
    rw [List.forall_mem_cons] at h
    have hcons : numbers (c :: (s ++ ys)) = numbers (s ++ ys) := numbers_append_cons h.1 [] _
    rw [List.cons_append, hcons, ih h.2]

theorem numbers_separated (h : isSeparator s = true) (xs ys : List Char) :
    numbers (xs ++ (s ++ ys)) = numbers xs ++ numbers ys := by
  cases s with
  | nil => contradiction
  | cons c s =>
    have hall : ∀ d ∈ c :: s, d.isDigit = false := by
      simpa [isSeparator] using h
    rw [List.forall_mem_cons] at hall
    rw [List.cons_append, numbers_append_cons hall.1, numbers_append_of_no_digit hall.2]

theorem numbers_ended (h : isSeparator s = true) (xs : List Char) :
    numbers (xs ++ s) = numbers xs := by
  have hend := numbers_separated h xs []
  rwa [List.append_nil, show numbers [] = [] from rfl, List.append_nil] at hend

theorem numbers_toDigits (n : Nat) : numbers (Nat.toDigits 10 n) = [n] := by
  have hdigits : ∀ d ∈ Nat.toDigits 10 n, (!d.isDigit) = false := by
    intro d hd
    rw [Nat.isDigit_of_mem_toDigits (by decide) (by decide) hd]
    rfl
  have hempty : (Nat.toDigits 10 n).isEmpty = false := by simp [Nat.toDigits_ne_nil]
  rw [numbers, List.splitOnP_eq_singleton hdigits]
  simp only [List.filter_cons, hempty, Bool.not_false, if_true, List.map_cons,
    Nat.ofDigitChars_ten_toDigits]
  rfl

end TaggedWords.Decimal
