/-!
# Decimal numbers

* `isDecimal`   whether a text is a decimal number without a sign, such as `12`, `.5` or `1.e-3`.
-/

namespace TaggedWords

namespace Decimal

def areDigits (cs : List Char) : Bool := !cs.isEmpty && cs.all Char.isDigit

def isExponent : List Char → Bool
  | [] => true
  | mark :: cs =>
    (mark = 'e' || mark = 'E') &&
      match cs with
      | '+' :: digits => areDigits digits
      | '-' :: digits => areDigits digits
      | digits => areDigits digits

end Decimal

open Decimal in
/-- There are digits before the point or behind it, and an exponent may follow. -/
def isDecimal (cs : List Char) : Bool :=
  let whole := cs.takeWhile Char.isDigit
  match cs.dropWhile Char.isDigit with
  | '.' :: rest =>
    let fraction := rest.takeWhile Char.isDigit
    !(whole.isEmpty && fraction.isEmpty) && isExponent (rest.dropWhile Char.isDigit)
  | rest => !whole.isEmpty && isExponent rest

end TaggedWords
