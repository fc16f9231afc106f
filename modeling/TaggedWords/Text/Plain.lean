/-!
# Plain text

What is shown of a text that may hold control sequences.  A terminal would obey such a sequence;
in plain text it leaves nothing.

* `Plain.Part`    the part of a sequence that a character stands in;
* `Plain.Layout`  what a line break or a tab does inside a sequence;
* `Plain.Place`   where a character stands: in the text, or in a sequence;
* `Plain.step`    reads one character;
* `Plain.read`    the characters that are shown;
* `plain`         the plain text of a text;
* `plainPieces`   the plain text of pieces that differ in style.
-/

namespace TaggedWords

namespace Plain

inductive Part where
  | escape
  /-- Behind an escape character and intermediate characters, before the final one. -/
  | intermediate
  | sequence
  /-- In a command to the system, which a bell ends. -/
  | command
  | device
  | deviceParameters
  | deviceIntermediate
  | string
  deriving DecidableEq, Repr

inductive Layout where
  | ends
  /-- It interrupts the sequence, which goes on at the next control. -/
  | interrupts
  deriving DecidableEq, Repr

inductive Place where
  /-- In the text, which may interrupt a sequence. -/
  | text (interrupted : Option Part)
  | inside (part : Part)
  deriving DecidableEq, Repr

def Place.start : Place := .text none

def isLayout (c : Char) : Bool :=
  c = '\t' || c = '\n' || c = '\x0c' || c = '\r'

/-- Whether a character of the text is shown: all but the controls that are no layout. -/
def isShown (c : Char) : Bool :=
  isLayout c || (0x20 ≤ c.toNat && c.toNat ≠ 0x7F)

def isCancel (c : Char) : Bool := c = '\x18' || c = '\x1a'

def isWithin (low high : Nat) (c : Char) : Bool := low ≤ c.toNat && c.toNat ≤ high

/-- Whether a character ends a control string.  The terminator is a single byte, which is also met
inside the characters that are written with it. -/
def isTerminator (c : Char) : Bool := (String.utf8EncodeChar c).contains 0x9C

def next (c : Char) : Part → Place
  | .escape =>
    if isWithin 0x20 0x2F c then .inside .intermediate
    else if c = '[' then .inside .sequence
    else if c = ']' then .inside .command
    else if c = 'P' then .inside .device
    else if c = 'X' || c = '^' || c = '_' then .inside .string
    else if isWithin 0x30 0x7E c then .text none
    else .inside .escape
  | .intermediate => if isWithin 0x30 0x7E c then .text none else .inside .intermediate
  | .sequence => if isWithin 0x40 0x7E c then .text none else .inside .sequence
  | .command => if c = '\x07' then .text none else .inside .command
  | .device =>
    if isWithin 0x20 0x2F c then .inside .deviceIntermediate
    else if isWithin 0x30 0x3F c then .inside .deviceParameters
    else if isWithin 0x40 0x7E c then .inside .string
    else .inside .device
  | .deviceParameters =>
    if isWithin 0x20 0x2F c then .inside .deviceIntermediate
    else if isWithin 0x3C 0x7E c then .inside .string
    else .inside .deviceParameters
  | .deviceIntermediate =>
    if isWithin 0x30 0x7E c then .inside .string else .inside .deviceIntermediate
  | .string => if isTerminator c then .text none else .inside .string

def Part.showsLayout : Part → Bool
  | .escape | .intermediate | .sequence => true
  | .command | .device | .deviceParameters | .deviceIntermediate | .string => false

def Layout.interrupted (part : Part) : Layout → Option Part
  | .ends => none
  | .interrupts => some part

/-- Reads one character: the place behind it, and whether it is shown.  An interrupted sequence is
forgotten at a character outside ASCII. -/
def step (layout : Layout) (place : Place) (c : Char) : Place × Bool :=
  if isCancel c then (.text none, false)
  else if c = '\x1b' then (.inside .escape, false)
  else
    match place with
    | .text interrupted =>
      if isShown c then (.text (if c.toNat < 0x80 then interrupted else none), true)
      else (interrupted.elim (.text none) .inside, false)
    | .inside part =>
      if isLayout c && part.showsLayout then (.text (layout.interrupted part), true)
      else (next c part, false)

def read (layout : Layout) : Place → List Char → List Char
  | _, [] => []
  | place, c :: rest =>
    match step layout place c with
    | (place, true) => c :: read layout place rest
    | (place, false) => read layout place rest

end Plain

def plain (layout : Plain.Layout) (text : String) : String :=
  String.ofList (Plain.read layout .start text.toList)

/-- A change of style ends every sequence, so each piece is read on its own. -/
def plainPieces (layout : Plain.Layout) (pieces : List String) : String :=
  String.join (pieces.map (plain layout))

end TaggedWords
