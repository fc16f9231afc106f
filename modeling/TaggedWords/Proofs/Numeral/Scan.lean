import Mathlib.Algebra.Group.Nat.Defs
import Mathlib.Data.List.Basic
import TaggedWords.Numeral.Count

/-!
# Which texts are counts

A text is a count if its characters, behind an optional plus sign, are digits of a number that does
not exceed the limit.  In any other text there is a first character that cannot be read, unless the
digits are missing, and this character alone decides the error.

* `Count.Denotes`       a text consists of the digits of a number, behind an optional sign;
* `Count.Spoils`        a character is no digit, or makes the number too large;
* `Count.Decides`       the first character that does so;
* `scan_eq_ok_iff`      what is read from digits that start with a number;
* `scan_eq_error_iff`   and what is wrong with other characters;
* `read_eq_ok_iff`      the texts that are counts;
* `read_eq_error_iff`   and what is wrong with other texts.
-/

namespace TaggedWords.Count

variable {n v i : Nat} {c : Char} {cs rest : List Char} {e : Error}

/-- A text consists of the digits of a number, behind an optional plus sign. -/
def Denotes (cs : List Char) (v : Nat) : Prop :=
  ∃ digits, (cs = digits ∨ cs = '+' :: digits) ∧ digits ≠ [] ∧
    (∀ c ∈ digits, c.isDigit = true) ∧ Nat.ofDigitChars 10 digits 0 = v

def unsigned : List Char → List Char
  | '+' :: rest => rest
  | cs => cs

/-- The character at a position is no digit, or makes the number that starts with `n` too large. -/
def Spoils (n : Nat) (cs : List Char) (i : Nat) : Prop :=
  ∃ c, cs[i]? = some c ∧
    (c.isDigit = false ∨ 2 ^ 64 - 1 < Nat.ofDigitChars 10 (cs.take (i + 1)) n)

/-- A character is the first one that cannot be read. -/
def Decides (n : Nat) (cs : List Char) (c : Char) : Prop :=
  ∃ i, cs[i]? = some c ∧ Spoils n cs i ∧ ∀ j < i, ¬ Spoils n cs j

def blame (c : Char) : Error := if c.isDigit then .tooLarge else .invalidDigit

/-! ## one character -/

theorem ofDigitChars_cons (n : Nat) (c : Char) (rest : List Char) :
    Nat.ofDigitChars 10 (c :: rest) n = Nat.ofDigitChars 10 rest (extend n c) :=
  Nat.ofDigitChars_cons

theorem le_ofDigitChars (n : Nat) (cs : List Char) : n ≤ Nat.ofDigitChars 10 cs n := by
  induction cs generalizing n with
  | nil => exact Nat.le_of_eq Nat.ofDigitChars_nil.symm
  | cons c rest ih =>
    rw [ofDigitChars_cons]
    exact Nat.le_trans (le_extend n c) (ih (extend n c))

theorem spoils_zero : Spoils n (c :: rest) 0 ↔ c.isDigit = false ∨ max < extend n c := by
  simp [Spoils, ofDigitChars_cons, max]

theorem spoils_succ : Spoils n (c :: rest) (i + 1) ↔ Spoils (extend n c) rest i := by
  simp only [Spoils, List.getElem?_cons_succ, List.take_succ_cons, ofDigitChars_cons]

theorem not_decides_nil (c : Char) : ¬ Decides n [] c := by
  rintro ⟨i, hi, -⟩
  simp at hi

theorem decides_of_spoils {d : Char} (h : Spoils n (c :: rest) 0) :
    Decides n (c :: rest) d ↔ d = c := by
  constructor
  · rintro ⟨i, hi, -, hfirst⟩
    have hzero : i = 0 := by
      by_contra hne
      exact hfirst 0 (Nat.pos_of_ne_zero hne) h
    subst hzero
    exact (Option.some.inj hi).symm
  · rintro rfl
    exact ⟨0, rfl, h, fun j hj => absurd hj j.not_lt_zero⟩

theorem decides_of_not_spoils {d : Char} (h : ¬ Spoils n (c :: rest) 0) :
    Decides n (c :: rest) d ↔ Decides (extend n c) rest d := by
  constructor
  · rintro ⟨i, hi, hspoils, hfirst⟩
    cases i with
    | zero => exact absurd hspoils h
    | succ i =>
      refine ⟨i, hi, spoils_succ.mp hspoils, fun j hj hspoils' => ?_⟩
      exact hfirst (j + 1) (Nat.succ_lt_succ hj) (spoils_succ.mpr hspoils')
  · rintro ⟨i, hi, hspoils, hfirst⟩
    refine ⟨i + 1, hi, spoils_succ.mpr hspoils, fun j hj => ?_⟩
    cases j with
    | zero => exact h
    | succ j => exact fun hspoils' => hfirst j (Nat.lt_of_succ_lt_succ hj) (spoils_succ.mp hspoils')

/-! ## the scan -/

theorem scan_of_spoils (h : Spoils n (c :: rest) 0) : scan n (c :: rest) = .error (blame c) := by
  rw [spoils_zero] at h
  by_cases hc : c.isDigit = true
  · have hlarge : ¬ extend n c ≤ max := by
      simpa [hc] using h
    rw [scan, if_pos hc, if_neg hlarge, blame, if_pos hc]
  · rw [scan, if_neg hc, blame, if_neg hc]

theorem scan_of_not_spoils (h : ¬ Spoils n (c :: rest) 0) :
    scan n (c :: rest) = scan (extend n c) rest := by
  rw [spoils_zero, not_or, Bool.not_eq_false, Nat.not_lt] at h
  rw [scan, if_pos h.1, if_pos h.2]

theorem scan_eq_ok_iff (hn : n ≤ max) :
    scan n cs = .ok v ↔
      (∀ c ∈ cs, c.isDigit = true) ∧ Nat.ofDigitChars 10 cs n = v ∧ v ≤ max := by
  induction cs generalizing n with
  | nil =>
    rw [scan, Nat.ofDigitChars_nil, Except.ok.injEq]
    constructor
    · rintro rfl
      exact ⟨by simp, rfl, hn⟩
    · exact fun h => h.2.1
  | cons c rest ih =>
    by_cases hspoils : Spoils n (c :: rest) 0
    · rw [scan_of_spoils hspoils, ofDigitChars_cons]
      refine ⟨fun h => by contradiction, fun ⟨hdigits, hvalue, hv⟩ => ?_⟩
      -- the number only grows behind the digit that makes it too large
      have hc : c.isDigit = true := hdigits c List.mem_cons_self
      have hle : extend n c ≤ v := hvalue ▸ le_ofDigitChars (extend n c) rest
      rw [spoils_zero, hc] at hspoils
      rcases hspoils with hfalse | hlarge
      · contradiction
      · omega
    · rw [scan_of_not_spoils hspoils, ofDigitChars_cons, List.forall_mem_cons]
      rw [spoils_zero, not_or, Bool.not_eq_false, Nat.not_lt] at hspoils
      rw [ih hspoils.2]
      simp only [hspoils.1, true_and]

theorem scan_eq_error_iff : scan n cs = .error e ↔ ∃ c, Decides n cs c ∧ blame c = e := by
  induction cs generalizing n with
  | nil => simp [scan, not_decides_nil]
  | cons c rest ih =>
    by_cases hspoils : Spoils n (c :: rest) 0
    · simp [scan_of_spoils hspoils, decides_of_spoils hspoils]
    · simp only [scan_of_not_spoils hspoils, decides_of_not_spoils hspoils, ih]

/-! ## whole texts -/

theorem unsigned_of_ne (h : c ≠ '+') (rest : List Char) : unsigned (c :: rest) = c :: rest := by
  unfold unsigned
  split
  · next heq => exact absurd (List.cons.inj heq).1 h
  · rfl

theorem denotes_iff : Denotes cs v ↔
    unsigned cs ≠ [] ∧ (∀ c ∈ unsigned cs, c.isDigit = true) ∧
      Nat.ofDigitChars 10 (unsigned cs) 0 = v := by
  constructor
  · rintro ⟨digits, hcs, hne, hdigits, hvalue⟩
    have hunsigned : unsigned cs = digits := by
      rcases hcs with rfl | rfl
      · cases cs with
        | nil => rfl
        | cons c rest =>
          -- a sign is no digit
          refine unsigned_of_ne (fun hsign => ?_) rest
          have hdigit : c.isDigit = true := hdigits c List.mem_cons_self
          rw [hsign] at hdigit
          contradiction
      · rfl
    rw [hunsigned]
    exact ⟨hne, hdigits, hvalue⟩
  · rintro ⟨hne, hdigits, hvalue⟩
    refine ⟨unsigned cs, ?_, hne, hdigits, hvalue⟩
    unfold unsigned
    split
    · exact .inr rfl
    · exact .inl rfl

theorem read_of_unsigned (h : unsigned cs ≠ []) : read cs = scan 0 (unsigned cs) := by
  unfold read
  split
  · contradiction
  · contradiction
  · rfl
  · next hsign =>
    cases cs with
    | nil => contradiction
    | cons c rest =>
      rw [unsigned_of_ne (fun hc => hsign rest (by rw [hc]))]

theorem unsigned_eq_nil_iff : unsigned cs = [] ↔ cs = [] ∨ cs = ['+'] := by
  unfold unsigned
  split
  · simp
  · next hsign => simpa using fun hcs => absurd hcs (hsign [])

theorem read_eq_ok_iff : read cs = .ok v ↔ Denotes cs v ∧ v ≤ max := by
  rw [denotes_iff]
  by_cases hnil : unsigned cs = []
  · rcases unsigned_eq_nil_iff.mp hnil with rfl | rfl <;> simp [read, unsigned]
  · rw [read_of_unsigned hnil, scan_eq_ok_iff (Nat.zero_le _)]
    simp only [ne_eq, hnil, not_false_eq_true, true_and, and_assoc]

theorem read_eq_error_iff (h : unsigned cs ≠ []) :
    read cs = .error e ↔ ∃ c, Decides 0 (unsigned cs) c ∧ blame c = e := by
  rw [read_of_unsigned h, scan_eq_error_iff]

end TaggedWords.Count
