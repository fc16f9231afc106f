import TaggedWords.Failure.Fault
import TaggedWords.Word.Value

/-!
# Words of integers

* `Word.ofInteger`  the word of an integer, or an overflow fault if no word holds it.
-/

namespace TaggedWords

def Word.ofInteger (n : Int) : Except Fault Word :=
  if Value.intMin ≤ n ∧ n ≤ Value.intMax then .ok (Atom.encode (.int n)) else .error .overflow

end TaggedWords
