import TaggedWords.Numeral.Hex

/-!
# Errors of the arena

* `ArenaError`          a size that no arena has, a record outside the arena, an arena that is full;
* `ArenaError.message`  the text of such an error.
-/

namespace TaggedWords

inductive ArenaError where
  | tooSmall (words : Nat)
  /-- Byte offsets in an arena of so many words exceed a word. -/
  | tooLarge (words limit : Nat)
  | allocationFailed (words : Nat)
  /-- The record at a byte offset is not wholly inside the arena. -/
  | outOfBounds (offset : Word) (arenaWords : Nat)
  | exhausted (requested available : Nat)
  deriving DecidableEq, Repr

def ArenaError.message : ArenaError → String
  | .tooSmall words => "arena of " ++ toString words ++ " words is too small"
  | .tooLarge words limit =>
    "arena of " ++ toString words ++ " words exceeds the limit of " ++ toString limit ++ " words"
  | .allocationFailed words => "allocation of an arena of " ++ toString words ++ " words failed"
  | .outOfBounds offset arenaWords =>
    "tuple at offset " ++ Hex.offset offset.toNat ++ " lies outside the arena ("
      ++ toString arenaWords ++ " words)"
  | .exhausted requested available =>
    "arena exhausted: record needs " ++ toString requested ++ " words, "
      ++ toString available ++ " left"

end TaggedWords
