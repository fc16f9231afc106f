import TaggedWords.Numeral.Hex

/-!
# Reading hexadecimal numerals

Leading zeros change no value, so a word is read back from its eight digits and an offset from as
many digits as it needs.

* `Hex.value`          the number that digits stand for;
* `Hex.value_digits`   the digits of a number are read back;
* `Hex.word_injective` different words have different numerals.
-/

namespace TaggedWords.Hex

def alphabet : List Char := "0123456789abcdef".toList

def digitValue (c : Char) : Nat :=
  if c.isDigit then c.toNat - '0'.toNat else c.toNat - 'a'.toNat + 10

def value (digits : List Char) : Nat :=
  digits.foldl (fun n c => 16 * n + digitValue c) 0

theorem digitValue_digitChar : ∀ d < 16, digitValue d.digitChar = d := by decide

theorem digitChar_mem_alphabet : ∀ d < 16, d.digitChar ∈ alphabet := by decide

theorem value_append_singleton (ds : List Char) (c : Char) :
    value (ds ++ [c]) = 16 * value ds + digitValue c := by
  rw [value, value, List.foldl_append, List.foldl_cons, List.foldl_nil]

theorem digits_of_lt {n : Nat} (h : n < 16) : digits n = [n.digitChar] :=
  Nat.toDigits_of_lt_base h

theorem digits_of_le {n : Nat} (h : 16 ≤ n) :
    digits n = digits (n / 16) ++ [(n % 16).digitChar] :=
  Nat.toDigits_of_base_le (by decide) h

theorem value_digits (n : Nat) : value (digits n) = n := by
  induction n using Nat.strongRecOn with
  | ind n ih =>
    by_cases hn : n < 16
    · rw [digits_of_lt hn, ← List.nil_append [n.digitChar], value_append_singleton,
        digitValue_digitChar n hn]
      show 16 * 0 + n = n
      omega
    · rw [digits_of_le (by omega), value_append_singleton, ih (n / 16) (by omega),
        digitValue_digitChar (n % 16) (by omega)]
      omega

theorem mem_alphabet_of_mem_digits {n : Nat} {c : Char} (h : c ∈ digits n) : c ∈ alphabet := by
  induction n using Nat.strongRecOn with
  | ind n ih =>
    by_cases hn : n < 16
    · rw [digits_of_lt hn, List.mem_singleton] at h
      rw [h]
      exact digitChar_mem_alphabet n hn
    · rw [digits_of_le (by omega)] at h
      rcases List.mem_append.mp h with h | h
      · exact ih (n / 16) (by omega) h
      · rw [List.mem_singleton.mp h]
        exact digitChar_mem_alphabet (n % 16) (by omega)

theorem value_leftpad (k : Nat) (ds : List Char) : value (ds.leftpad k '0') = value ds := by
  have hzeros : ∀ n, value (List.replicate n '0' ++ ds) = value ds := by
    intro n
    induction n with
    | zero => rfl
    | succ n ih =>
      rw [List.replicate_succ, List.cons_append]
      exact ih
  exact hzeros (k - ds.length)

theorem mem_alphabet_of_mem_leftpad {k n : Nat} {c : Char}
    (h : c ∈ (digits n).leftpad k '0') : c ∈ alphabet := by
  rcases List.mem_append.mp h with h | h
  · rw [List.eq_of_mem_replicate h]
    decide
  · exact mem_alphabet_of_mem_digits h

theorem toList_word (w : Word) :
    (word w).toList = '0' :: 'x' :: (digits w.toNat).leftpad 8 '0' := by
  simp [word]

/-- Different words have different numerals. -/
theorem word_injective {v w : Word} (h : word v = word w) : v = w := by
  have hlists := congrArg String.toList h
  rw [toList_word, toList_word] at hlists
  injection hlists with _ hlists
  injection hlists with _ hlists
  have hvalues := congrArg value hlists
  rw [value_leftpad, value_leftpad, value_digits, value_digits] at hvalues
  exact UInt32.toNat_inj.mp hvalues

end TaggedWords.Hex
