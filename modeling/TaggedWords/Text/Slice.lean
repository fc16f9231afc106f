/-!
# Positions in bytes

Parts of a text between positions that count the bytes of its UTF-8 form.

* `byteSize`     the number of bytes of a text;
* `takeBytes?`   the first bytes of a text;
* `dropBytes?`   what follows the first bytes of a text.
-/

namespace TaggedWords

def byteSize : List Char → Nat
  | [] => 0
  | c :: cs => c.utf8Size + byteSize cs

/-- The first bytes of a text.  None if they end inside a character or behind the text. -/
def takeBytes? : Nat → List Char → Option (List Char)
  | 0, _ => some []
  | _ + 1, [] => none
  | n + 1, c :: cs =>
    if c.utf8Size ≤ n + 1 then (takeBytes? (n + 1 - c.utf8Size) cs).map (c :: ·) else none

/-- What follows the first bytes of a text, or none as for `takeBytes?`. -/
def dropBytes? : Nat → List Char → Option (List Char)
  | 0, cs => some cs
  | _ + 1, [] => none
  | n + 1, c :: cs => if c.utf8Size ≤ n + 1 then dropBytes? (n + 1 - c.utf8Size) cs else none

end TaggedWords
