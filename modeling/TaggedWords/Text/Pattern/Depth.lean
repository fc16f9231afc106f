/-!
# Depth of a pattern

How deep the parts of a pattern lie in each other is bounded.

* `maxDepth`   the greatest depth;
* `rowDepth`   the depth of parts that stand side by side.
-/

namespace TaggedWords

namespace Pattern

def maxDepth : Nat := 250

/-- The depth of parts that stand side by side: two or more make a part of their own. -/
def rowDepth : List Nat → Nat
  | [] => 0
  | [d] => d
  | ds => ds.foldr max 0 + 1

end Pattern

end TaggedWords
