import TaggedWords.Options.Basic
import TaggedWords.Text.Similarity

/-!
# Suggestions

Where no option has a name, the option whose name is most like it is suggested, if it is like
enough.

* `Switch.likeness`   how like a name the name of an option is;
* `Switch.like?`      the option that is suggested for a name.
-/

namespace TaggedWords

namespace Switch

def likeness (name : String) (switch : Switch) : Float :=
  similarity name.toList switch.name.toList

def leastLikeness : Float := 0.7

/-- Of two options the second, if they are equally alike. -/
def moreLike (name : String) (best : Option Switch) (switch : Switch) : Option Switch :=
  match best with
  | none => some switch
  | some other => if switch.likeness name < other.likeness name then some other else some switch

def like? (name : String) : Option Switch :=
  (all.filter fun switch => leastLikeness < switch.likeness name).foldl (moreLike name) none

end Switch

end TaggedWords
