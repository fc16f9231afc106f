/-!
# Faults

A running program raises a fault by its code when it finds a type or range violation.  Seven
codes have a meaning; every other code is an unknown fault that keeps its code.

* `Fault.ofCode`, `Fault.code`  the fault of a code and back (`code_ofCode`, `ofCode_code`);
* `Fault.message`               the text of a fault.
-/

namespace TaggedWords

inductive Fault where
  | comparisonNonNumber
  | arithmeticNonNumber
  | ifNonBoolean
  | overflow
  | notATuple
  | indexTooSmall
  | indexTooLarge
  /-- A code without a meaning, that is, one outside `0` to `6`. -/
  | unknown (code : Int) (outside : code < 0 ∨ 6 < code)
  deriving DecidableEq, Repr

namespace Fault

def code : Fault → Int
  | .comparisonNonNumber => 0
  | .arithmeticNonNumber => 1
  | .ifNonBoolean => 2
  | .overflow => 3
  | .notATuple => 4
  | .indexTooSmall => 5
  | .indexTooLarge => 6
  | .unknown code _ => code

def ofCode (code : Int) : Fault :=
  if outside : code < 0 ∨ 6 < code then .unknown code outside
  else if code = 0 then .comparisonNonNumber
  else if code = 1 then .arithmeticNonNumber
  else if code = 2 then .ifNonBoolean
  else if code = 3 then .overflow
  else if code = 4 then .notATuple
  else if code = 5 then .indexTooSmall
  else .indexTooLarge

@[simp] theorem code_ofCode (code : Int) : (ofCode code).code = code := by
  unfold ofCode
  repeat' split
  all_goals simp only [Fault.code]
  all_goals omega

@[simp] theorem ofCode_code (f : Fault) : ofCode f.code = f := by
  cases f with
  | unknown code outside => simp [ofCode, Fault.code, outside]
  | _ => rfl

def isKnown : Fault → Bool
  | .unknown _ _ => false
  | _ => true

theorem isKnown_iff (f : Fault) : f.isKnown = true ↔ 0 ≤ f.code ∧ f.code ≤ 6 := by
  cases f with
  | unknown code outside =>
    simp only [isKnown, Fault.code, Bool.false_eq_true, false_iff]
    omega
  | _ => decide

def message : Fault → String
  | .comparisonNonNumber => "comparison operator got non-number"
  | .arithmeticNonNumber => "arithmetic operator got non-number"
  | .ifNonBoolean => "if condition got non-boolean"
  | .overflow => "Integer overflow"
  | .notATuple => "not a tuple"
  | .indexTooSmall => "index too small"
  | .indexTooLarge => "index too large"
  | .unknown code _ => "Unknown error code: " ++ toString code

end Fault

end TaggedWords
