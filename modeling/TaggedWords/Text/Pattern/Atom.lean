import TaggedWords.Text.Pattern.Switches

/-!
# Atoms of a pattern

An atom matches a character, or a place of the text.  There are no tables of Unicode: what needs
one, such as the letters of words and the other case of a character, is only there for bytes.
Nothing may match a part of a character.

* `Atom`                   a smallest part of a pattern;
* `Atom.ofEscape?`         the atom that is written behind a backslash;
* `Atom.read?`             the atom at the beginning of a text;
* `Atom.isAdmitted`        whether an atom may stand under certain switches;
* `Atom.isAdmittedInside`  whether it may stand in a bracketed class.
-/

namespace TaggedWords

namespace Pattern

inductive Atom where
  | char (c : Char) (asByte : Bool)
  | any
  /-- The digits, the blanks or the characters of words; negated, all others. -/
  | shorthand (negated : Bool)
  | anchor
  /-- A place where a word begins or ends, or none does. -/
  | wordEdge
  deriving DecidableEq, Repr

def isSingleByte (c : Char) : Bool := c.toNat < 0x80

/-- Whether a character means itself behind a backslash. -/
def isEscapable (c : Char) : Bool :=
  isSingleByte c && !c.isAlphanum && c ≠ '<' && c ≠ '>'

def hexDigit? (c : Char) : Option Nat :=
  if c.isDigit then some (c.toNat - 0x30)
  else if 'a' ≤ c ∧ c ≤ 'f' then some (c.toNat - 0x61 + 10)
  else if 'A' ≤ c ∧ c ≤ 'F' then some (c.toNat - 0x41 + 10)
  else none

def hexDigits? (s : Switches) (value : Nat) : Nat → List Char → Option (Nat × List Char)
  | 0, cs => some (value, cs)
  | count + 1, cs =>
    match s.skip cs with
    | [] => none
    | c :: rest => do
      let digit ← hexDigit? c
      hexDigits? s (16 * value + digit) count rest

/-- The number of digits of the code point that a letter announces behind a backslash. -/
def hexLength? : Char → Option Nat
  | 'x' => some 2
  | 'u' => some 4
  | 'U' => some 8
  | _ => none

namespace Atom

def ofEscaped? (c : Char) : Option Atom :=
  if isEscapable c then some (.char c false)
  else
    match c with
    | 'a' => some (.char '\x07' false)
    | 'f' => some (.char '\x0c' false)
    | 'n' => some (.char '\n' false)
    | 'r' => some (.char '\r' false)
    | 't' => some (.char '\t' false)
    | 'v' => some (.char '\x0b' false)
    | 'd' | 's' | 'w' => some (.shorthand false)
    | 'D' | 'S' | 'W' => some (.shorthand true)
    | 'A' | 'z' => some .anchor
    | 'b' | 'B' | '<' | '>' => some .wordEdge
    | _ => none

/-- The atom that is written behind a backslash, and the rest.  Two digits write a byte. -/
def ofEscape? (s : Switches) : List Char → Option (Atom × List Char)
  | [] => none
  | c :: rest =>
    match hexLength? c with
    | some count => do
      let (code, rest) ← hexDigits? s 0 count rest
      if code.isValidChar then some (.char (Char.ofNat code) (count = 2), rest) else none
    | none => (ofEscaped? c).map fun atom => (atom, rest)

def read? (s : Switches) : List Char → Option (Atom × List Char)
  | [] => none
  | '\\' :: rest => ofEscape? s rest
  | '.' :: rest => some (.any, rest)
  | '^' :: rest => some (.anchor, rest)
  | '$' :: rest => some (.anchor, rest)
  | c :: rest => some (.char c false, rest)

/-- In a bracketed class only the backslash has a meaning of its own. -/
def readInside? (s : Switches) : List Char → Option (Atom × List Char)
  | [] => none
  | '\\' :: rest => ofEscape? s rest
  | c :: rest => some (.char c false, rest)

def isAdmitted (s : Switches) : Atom → Bool
  | .char c asByte => if s.unicode then !s.ignoresCase else !asByte || isSingleByte c
  | .any => s.unicode
  | .shorthand negated => !s.unicode && !negated
  | .anchor => true
  | .wordEdge => !s.unicode

/-- Whether an atom may stand in a bracketed class.  A class of bytes has no longer characters. -/
def isAdmittedInside (s : Switches) : Atom → Bool
  | .char c asByte => isAdmitted s (.char c asByte) && (s.unicode || isSingleByte c)
  | .shorthand negated => isAdmitted s (.shorthand negated)
  | .any | .anchor | .wordEdge => false

end Atom

end Pattern

end TaggedWords
