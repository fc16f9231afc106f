/-!
# How alike two texts are

Two texts are alike as far as they hold the same characters at about the same places, and in the
same order (the Jaro similarity).

* `Similarity.reach`      how far apart the places of partners may be;
* `Similarity.partners`   the places in the second text that have a partner in the first;
* `Similarity.misplaced`  the number of partners that stand in another order;
* `similarity`            the similarity, from zero to one.
-/

namespace TaggedWords

namespace Similarity

def reach (m n : Nat) : Nat := max m n / 2 - 1

/-- The first place within reach that holds the same character and is not taken. -/
def partner? (reach place : Nat) (c : Char) (taken : List Nat) (text : List Char) : Option Nat :=
  text.zipIdx.findSome? fun (d, other) =>
    if c = d ∧ place ≤ other + reach ∧ other ≤ place + reach ∧ other ∉ taken then some other
    else none

/-- Takes a partner for each of the characters that stand from a place on, where there is one.
The places taken last come first. -/
def takePartners (reach : Nat) (text : List Char) : Nat → List Nat → List Char → List Nat
  | _, taken, [] => taken
  | place, taken, c :: rest =>
    match partner? reach place c taken text with
    | some other => takePartners reach text (place + 1) (other :: taken) rest
    | none => takePartners reach text (place + 1) taken rest

def partners (first second : List Char) : List Nat :=
  (takePartners (reach first.length second.length) second 0 [] first).reverse

/-- The number of partners that hold another character than the one that their rank in the second
text calls for. -/
def misplaced (second : List Char) (places : List Nat) : Nat :=
  let inFirst := places.filterMap fun place => second[place]?
  let inSecond := second.zipIdx.filterMap fun (c, place) =>
    if place ∈ places then some c else none
  ((inFirst.zip inSecond).filter fun (c, d) => c ≠ d).length

end Similarity

open Similarity in
/-- The mean of the share of the first text that has a partner, the share of the second that has
one, and the share of partners that stand in order. -/
def similarity (first second : List Char) : Float :=
  let places := partners first second
  let ordered := places.length - misplaced second places / 2
  if places.isEmpty then 0
  else
    (Float.ofNat places.length / Float.ofNat first.length
      + Float.ofNat places.length / Float.ofNat second.length
      + Float.ofNat ordered / Float.ofNat places.length) / 3

end TaggedWords
