import TaggedWords.Text.Blank

/-!
# Switches of a pattern

How a pattern is read depends on switches, which it may set itself, for a group or for the rest of
a group.

* `Switches`           what is switched on at a place of a pattern;
* `Switches.change?`   the switches that a text turns on and, behind a hyphen, off;
* `Switches.skip`      what is left of a text behind the blanks and comments that do not count.
-/

namespace TaggedWords

namespace Pattern

/-- A comment goes from a number sign to the end of the line. -/
def skipBlanks (inComment : Bool) : List Char → List Char
  | [] => []
  | c :: rest =>
    if inComment then skipBlanks (c ≠ '\n') rest
    else if c = '#' then skipBlanks true rest
    else if isBlank c then skipBlanks false rest
    else c :: rest

structure Switches where
  ignoresCase : Bool
  /-- What is matched are characters, and not bytes. -/
  unicode : Bool
  spaced : Bool
  deriving DecidableEq, Repr

namespace Switches

def atStart : Switches := ⟨false, true, false⟩

/-- Turns the switch of a letter on or off.  The other letters do not matter to the reading. -/
def turn (on : Bool) (s : Switches) : Char → Switches
  | 'i' => { s with ignoresCase := on }
  | 'u' => { s with unicode := on }
  | 'x' => { s with spaced := on }
  | _ => s

def letters : List Char := ['i', 'm', 's', 'U', 'u', 'R', 'x']

/-- The switches that a text turns on and, behind a hyphen, off.  None if the text has something
else than letters of switches, or has one twice, or if nothing follows the hyphen. -/
def change? (s : Switches) (cs : List Char) : Option Switches :=
  let on := cs.takeWhile (· ≠ '-')
  let off := (cs.dropWhile (· ≠ '-')).drop 1
  if (on ++ off).all (letters.contains ·) && (on ++ off).Nodup
      && !(cs.contains '-' && off.isEmpty) then
    some (off.foldl (turn false) (on.foldl (turn true) s))
  else none

def skip (s : Switches) (cs : List Char) : List Char :=
  if s.spaced then skipBlanks false cs else cs

end Switches

end Pattern

end TaggedWords
