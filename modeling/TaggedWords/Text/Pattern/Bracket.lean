import TaggedWords.Text.Pattern.Atom
import TaggedWords.Text.Pattern.Depth

/-!
# Bracketed classes

A class between brackets is a row of characters, ranges, named classes and further bracketed
classes.  Doubled signs combine the row before them with the row behind them.

* `Bracket`          what has been read of a bracketed class;
* `Bracket.named?`   the class that is named between colons;
* `Bracket.item?`    what follows a character, a range or a set of characters;
* `Bracket.read?`    the depth of a bracketed class, and what follows it.
-/

namespace TaggedWords

namespace Pattern

structure Bracket where
  /-- The depth of what stands before the last operator. -/
  before : Option Nat
  items : List Nat
  deriving DecidableEq, Repr

inductive Place where
  /-- Behind the opening, where a hyphen or a closing bracket means itself. -/
  | opening
  /-- Behind hyphens that follow the opening, where a hyphen still means itself. -/
  | hyphens
  | inside
  deriving DecidableEq, Repr

namespace Bracket

def empty : Bracket := ⟨none, []⟩

def push (b : Bracket) (depth : Nat) : Bracket := ⟨b.before, depth :: b.items⟩

/-- The depth of what has been read: an operator makes one part of the two rows around it. -/
def depth (b : Bracket) : Nat :=
  match b.before with
  | none => rowDepth b.items
  | some d => max d (rowDepth b.items) + 1

def combine (b : Bracket) : Bracket := ⟨some b.depth, []⟩

def names : List String :=
  ["alnum", "alpha", "ascii", "blank", "cntrl", "digit", "graph", "lower", "print", "punct",
    "space", "upper", "word", "xdigit"]

/-- Behind an opening bracket, whether the class that is named there between colons is negated,
and what follows it. -/
def named? : List Char → Option (Bool × List Char)
  | ':' :: rest =>
    let negated := rest.head? = some '^'
    let rest := if negated then rest.drop 1 else rest
    match rest.dropWhile (· ≠ ':') with
    | ':' :: ']' :: tail =>
      if String.ofList (rest.takeWhile (· ≠ ':')) ∈ names then some (negated, tail) else none
    | _ => none
  | _ => none

def admitsNamed (s : Switches) (negated : Bool) : Bool :=
  if s.unicode then !s.ignoresCase else !negated

/-- Behind an opening bracket and the caret that negates, if there is one, what follows.  What is
no byte of its own cannot be left over by a class of bytes. -/
def opened? (s : Switches) (cs : List Char) : Option (List Char) :=
  match s.skip cs with
  | '^' :: rest => if s.unicode then some rest else none
  | rest => some rest

def isOperator (c : Char) (rest : List Char) : Bool :=
  (c = '&' || c = '-' || c = '~') && rest.head? = some c

/-- The character ahead that decides whether a hyphen stands in a range.  Blanks do not count, and
one number sign among them. -/
def ahead? (s : Switches) (cs : List Char) : Option Char :=
  if s.spaced then
    match cs.dropWhile isBlank with
    | '#' :: rest => (rest.dropWhile isBlank).head?
    | rest => rest.head?
  else cs.head?

def item? (s : Switches) (cs : List Char) : Option (List Char) := do
  let (low, rest) ← Atom.readInside? s cs
  if !low.isAdmittedInside s then none
  else
    match s.skip rest with
    | '-' :: tail =>
      if ahead? s tail = some ']' || ahead? s tail = some '-' then some ('-' :: tail)
      else do
        let (high, rest) ← Atom.readInside? s (s.skip tail)
        match low, high with
        | .char low _, .char top _ =>
          if low ≤ top && high.isAdmittedInside s then some rest else none
        | _, _ => none
    | rest => some rest

/-- The text goes on inside a class, which lies in others.  Each call reads a character. -/
def close? (s : Switches) :
    Nat → Place → Bracket → List Bracket → List Char → Option (Nat × List Char)
  | 0, _, _, _, _ => none
  | fuel + 1, place, b, outer, cs =>
    match s.skip cs with
    | [] => none
    | c :: rest =>
      if c = '-' && place ≠ .inside || c = ']' && place = .opening then
        if Atom.isAdmittedInside s (.char c false) then
          close? s fuel (if c = '-' then .hyphens else .inside) (b.push 0) outer rest
        else none
      else if c = ']' then
        match outer with
        | [] => some (b.depth + 1, rest)
        | o :: outer => close? s fuel .inside (o.push (b.depth + 1)) outer rest
      else if c = '[' then
        match named? rest with
        | some (negated, rest) =>
          if admitsNamed s negated then close? s fuel .inside (b.push 0) outer rest else none
        | none =>
          match opened? s rest with
          | some rest => close? s fuel .opening empty (b :: outer) rest
          | none => none
      else if isOperator c rest then close? s fuel .inside b.combine outer (rest.drop 1)
      else
        match item? s (c :: rest) with
        | some rest => close? s fuel .inside (b.push 0) outer rest
        | none => none

def read? (s : Switches) (cs : List Char) : Option (Nat × List Char) := do
  close? s (cs.length + 1) .opening empty [] (← opened? s cs)

end Bracket

end Pattern

end TaggedWords
