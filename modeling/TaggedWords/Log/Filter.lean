import TaggedWords.Log.Event
import TaggedWords.Numeral.Count
import TaggedWords.Numeral.Decimal
import TaggedWords.Text.Alphanumeric
import TaggedWords.Text.Blank
import TaggedWords.Text.Pattern.Reading
import TaggedWords.Text.Slice

/-!
# Log filters

A filter is a list of directives, written with commas between them.  A directive names a level,
a target, or both as `target=level`; a target alone lets everything through.  Behind the target it
may name, in brackets, a span within which it holds, and, in braces, a field that events must have.
Of the directives that are about an event, the most specific decides.

Main names:

* `Subject`            what a directive is about, besides its target;
* `Directive`          a target, a subject and the least important level that is let through;
* `Directive.read?`    the directive that a text stands for;
* `Filter.ofText`      the filter that a text stands for;
* `Filter.shows`       whether a filter lets an event through;
* `Filter.lines`       the lines of the events that a filter lets through.
-/

namespace TaggedWords

/-- The least important level that is let through; none lets nothing through. -/
abbrev Threshold := Option Level

namespace Threshold

/-- The number of a threshold: the levels up to this number are let through. -/
def number : Threshold → Nat
  | none => 0
  | some level => level.number

def ofNumber? : Nat → Option Threshold
  | 0 => some none
  | 1 => some (some .error)
  | 2 => some (some .warn)
  | 3 => some (some .info)
  | 4 => some (some .debug)
  | 5 => some (some .trace)
  | _ => none

def ofName? : String → Option Threshold
  | "off" => some none
  | "error" => some (some .error)
  | "warn" => some (some .warn)
  | "info" => some (some .info)
  | "debug" => some (some .debug)
  | "trace" => some (some .trace)
  | _ => none

/-- The threshold that a text stands for: a name in any case, or a number. -/
def read? (text : String) : Option Threshold :=
  match Count.read text.toList with
  | .ok n => ofNumber? n
  | .error _ => ofName? text.toLower

end Threshold

inductive Subject where
  | all
  | having (field : String)
  /-- What happens within certain spans.  The runtime opens no span, so there is none of it. -/
  | withinSpans
  deriving DecidableEq, Repr

namespace Subject

def covers (event : Event) : Subject → Bool
  | .all => true
  | .having field => event.fields.contains field
  | .withinSpans => false

/-- Of two fields, the later in the alphabet counts as the more specific. -/
def isAtMost : Subject → Subject → Bool
  | .having field, .having other => field ≤ other
  | .having _, _ => false
  | _, _ => true

/-- Whether the value of a field can be read: as a number with a sign, or else as a pattern. -/
def isValue : List Char → Bool
  | '+' :: cs => isDecimal cs || (String.ofList cs).toLower ∈ ["inf", "infinity", "nan"]
  | cs => isPattern cs

def ofField? (cs : List Char) : Option Subject :=
  match cs.dropWhile (· ≠ '=') with
  | [] => some (.having (String.ofList cs))
  | _ :: rest => if isValue (rest.takeWhile (· ≠ '=')) then some .withinSpans else none

/-- The subject between brackets, and what follows them.  The field is cut from the whole text,
where the inside of the brackets begins at a position. -/
def read? (text : List Char) (position : Nat) (inside : List Char) :
    Option (Subject × List Char) :=
  let isName := fun c => c ≠ ']' && c ≠ '\x7b'
  let span := inside.takeWhile isName
  match inside.dropWhile isName with
  | ']' :: tail => some (.withinSpans, tail)
  | _ :: rest =>
    let field := rest.takeWhile (· ≠ '\x7d')
    match rest.dropWhile (· ≠ '\x7d') with
    | _ :: ']' :: tail => do
      let shown ← dropBytes? (position + byteSize span + 1) text
      let subject ← ofField? (← takeBytes? (byteSize field) shown)
      if field.isEmpty then none
      else some (if span.isEmpty then subject else .withinSpans, tail)
    | _ => none
  | [] => none

end Subject

structure Directive where
  /-- What an event's target must begin with. -/
  target : String
  subject : Subject
  threshold : Threshold
  deriving DecidableEq, Repr

namespace Directive

def mayBegin (c : Char) : Bool :=
  isAlphanumeric c || c = '-' || c = ':' || c = '_'

/-- The threshold behind the equals sign.  Nothing lets everything through. -/
def readThreshold? (text : String) : Option Threshold :=
  if text.isEmpty then some (some .trace) else Threshold.read? text

/-- A level for every target, or a target for which everything is let through. -/
def ofLevelOrTarget (text : String) : Directive :=
  match Threshold.read? text with
  | some threshold => ⟨"", .all, threshold⟩
  | none => ⟨text, .all, some .trace⟩

def finish? (text : List Char) (position : Nat) (target : List Char) (subject : Subject) :
    List Char → Option Directive
  | [] => some ⟨String.ofList target, subject, some .trace⟩
  | '=' :: _ => do
    let level ← dropBytes? (position + 1) text
    return ⟨String.ofList target, subject, ← readThreshold? (String.ofList level)⟩
  | _ => none

def trimmed (text : List Char) : List Char :=
  ((text.dropWhile isBlank).reverse.dropWhile isBlank).reverse

/-- Reads one directive.  The blanks at its ends do not count where its parts are looked for; but
the parts are cut from the text with the blanks, at the positions found without them. -/
def read? (piece : String) : Option Directive :=
  let text := piece.toList
  let body := trimmed text
  let isTarget := fun c => c ≠ '=' && c ≠ '['
  let target := body.takeWhile isTarget
  match body.dropWhile isTarget with
  | [] => if target.head?.any mayBegin then some (ofLevelOrTarget piece) else none
  | '[' :: inside =>
    if target.head?.all mayBegin then do
      let (subject, tail) ← Subject.read? text (byteSize target + 1) inside
      finish? text (byteSize body - byteSize tail) (← takeBytes? (byteSize target) text) subject
        tail
    else none
  | tail =>
    if target.head?.any mayBegin then do
      finish? text (byteSize target) (← takeBytes? (byteSize target) text) .all tail
    else none

def covers (d : Directive) (event : Event) : Bool :=
  d.target.toList.isPrefixOf event.origin.target.toList && d.subject.covers event

def isAtMost (d e : Directive) : Bool :=
  d.target.length < e.target.length
    || (d.target.length = e.target.length && d.subject.isAtMost e.subject)

end Directive

structure Filter where
  directives : List Directive
  deriving DecidableEq, Repr

namespace Filter

def atLevel (level : Level) : Filter := ⟨[⟨"", .all, some level⟩]⟩

def read? (text : String) : Option Filter :=
  match (text.splitOn ",").filter (!·.isEmpty) with
  | [] => some (atLevel .error)
  | pieces => (pieces.mapM Directive.read?).map Filter.mk

/-- The filter that a text stands for.  A text that cannot be read stands for warnings. -/
def ofText (text : String) : Filter := (read? text).getD (atLevel .warn)

/-- The more specific of two directives, and the later of two that are equally specific. -/
def moreSpecific (decided : Option Directive) (d : Directive) : Option Directive :=
  match decided with
  | none => some d
  | some e => if e.isAtMost d then some d else some e

def decisive? (filter : Filter) (event : Event) : Option Directive :=
  (filter.directives.filter (·.covers event)).foldl moreSpecific none

def shows (filter : Filter) (event : Event) : Bool :=
  match filter.decisive? event with
  | none => false
  | some d => event.level.number ≤ d.threshold.number

def lines (filter : Filter) (events : List Event) : String :=
  String.join ((events.filter filter.shows).map Event.line)

end Filter

end TaggedWords
