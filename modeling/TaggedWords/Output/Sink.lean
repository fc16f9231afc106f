/-!
# Output sinks

A sink takes bytes until it is full, and may refuse to be flushed.  What it took before it was
full stays in it.

* `Sink`         a sink and the bytes that it has taken;
* `Sink.write`   writes a text, as far as there is room;
* `Sink.flush`   flushes the sink;
* `Sink.text`    what the sink has taken, as text.
-/

namespace TaggedWords

def bytesOf (text : String) : List UInt8 := text.toUTF8.data.toList

/-- The text of bytes in UTF-8.  A character that is cut off at the end is shown as U+FFFD. -/
def textOf (bytes : List UInt8) : String :=
  ((List.range 4).findSome? fun cut =>
    (String.fromUTF8? ⟨(bytes.take (bytes.length - cut)).toArray⟩).map fun text =>
      if cut = 0 then text else text ++ "\ufffd").getD "\ufffd"

theorem textOf_bytesOf (text : String) : textOf (bytesOf text) = text := by
  have hback : (⟨(bytesOf text).toArray⟩ : ByteArray) = text.toUTF8 := rfl
  have hvalid : text.toUTF8.IsValidUTF8 := text.isValidUTF8
  have hread : String.fromUTF8? text.toUTF8 = some text := by
    unfold String.fromUTF8?
    rw [dif_pos hvalid]
    rfl
  have htake : (bytesOf text).take ((bytesOf text).length - 0) = bytesOf text := List.take_length
  have hrange : List.range 4 = 0 :: [1, 2, 3] := rfl
  rw [textOf, hrange, List.findSome?_cons, htake, hback, hread]
  rfl

structure Sink where
  /-- The number of bytes that the sink takes in all, if that is bounded. -/
  limit : Option Nat := none
  full : String := "failed to write whole buffer"
  /-- Why the sink cannot be flushed, if it cannot. -/
  stuck : Option String := none
  taken : List UInt8 := []
  deriving DecidableEq, Repr

namespace Sink

def room (sink : Sink) (wanted : Nat) : Nat :=
  match sink.limit with
  | none => wanted
  | some limit => min wanted (limit - sink.taken.length)

/-- Writes a text.  A sink without room for all of it takes the first bytes and fails. -/
def write (sink : Sink) (text : String) : Except String Unit × Sink :=
  let bytes := bytesOf text
  let room := sink.room bytes.length
  (if room = bytes.length then .ok () else .error sink.full,
    { sink with taken := sink.taken ++ bytes.take room })

def flush (sink : Sink) : Except String Unit :=
  match sink.stuck with
  | none => .ok ()
  | some reason => .error reason

def text (sink : Sink) : String := textOf sink.taken

theorem room_le (sink : Sink) (wanted : Nat) : sink.room wanted ≤ wanted := by
  unfold room
  split
  · exact Nat.le_refl _
  · exact Nat.min_le_left _ _

end Sink

end TaggedWords
