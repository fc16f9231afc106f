import TaggedWords.Output.Print
import TaggedWords.Proofs.Walk.RenderLoop

/-!
# Writing to a sink

A text that fits is taken as a whole.  Of a text that does not fit, the sink takes as many bytes as
it has room for, and the writing fails.

* `Sink.Fits`, `Sink.adding`   there is room for a text; a sink with more bytes in it;
* `Sink.write_of_fits`, `Sink.write_of_short`   writing a text, and as much of it as fits;
* `Sink.fits_empty`, `Sink.text_adding_empty`   an empty sink without a limit takes every text;
* `Arena.print_of_error`     a word that cannot be rendered leaves the sink alone;
* `Arena.print_of_fits`, `Arena.print_of_short`   printing a word on a line.
-/

namespace TaggedWords

namespace Sink

variable {sink : Sink} {text : String}

/-- The sink has room for the whole text. -/
def Fits (sink : Sink) (text : String) : Prop :=
  ∀ limit ∈ sink.limit, (bytesOf text).length ≤ limit - sink.taken.length

def adding (sink : Sink) (bytes : List UInt8) : Sink := { sink with taken := sink.taken ++ bytes }

theorem not_fits_iff : ¬ sink.Fits text ↔
    ∃ limit, sink.limit = some limit ∧ limit - sink.taken.length < (bytesOf text).length := by
  simp only [Fits, Option.mem_def, not_forall, Nat.not_le, exists_prop]

theorem write_of_fits (h : sink.Fits text) :
    sink.write text = (.ok (), sink.adding (bytesOf text)) := by
  have hroom : sink.room (bytesOf text).length = (bytesOf text).length := by
    unfold room
    split
    · rfl
    · exact Nat.min_eq_left (h _ ‹_›)
  rw [write, hroom, if_pos rfl, List.take_length]
  rfl

theorem write_of_short {limit : Nat} (hlimit : sink.limit = some limit)
    (h : limit - sink.taken.length < (bytesOf text).length) :
    sink.write text = (.error sink.full,
      sink.adding ((bytesOf text).take (limit - sink.taken.length))) := by
  have hroom : sink.room (bytesOf text).length = limit - sink.taken.length := by
    rw [room, hlimit]
    exact Nat.min_eq_right (Nat.le_of_lt h)
  rw [write, hroom, if_neg (Nat.ne_of_lt h)]
  rfl

/-! ## standard output -/

theorem fits_empty (text : String) : ({} : Sink).Fits text := fun _ h => nomatch h

theorem text_empty : ({} : Sink).text = "" := textOf_bytesOf ""

theorem text_adding_empty (text : String) : (adding {} (bytesOf text)).text = text :=
  textOf_bytesOf text

end Sink

/-! ## printing a word -/

namespace Arena

variable {arena : Arena} {w : Word} {sink : Sink} {text : String}

theorem print_of_error {e : ArenaError} (h : arena.RenderEndsWith w (.error e)) (sink : Sink) :
    arena.print w sink = some (.error (.arena e), sink) := by
  rw [print, render_run_eq_some_iff.mpr h]
  rfl

theorem print_of_short {limit : Nat} (h : arena.RenderEndsWith w (.ok text))
    (hlimit : sink.limit = some limit)
    (hshort : limit - sink.taken.length < (bytesOf (text ++ "\n")).length) :
    arena.print w sink = some (.error (.output sink.full),
      sink.adding ((bytesOf (text ++ "\n")).take (limit - sink.taken.length))) := by
  rw [print, render_run_eq_some_iff.mpr h, Option.map_some]
  simp only [lineOf, Sink.write_of_short hlimit hshort]

theorem print_of_fits (h : arena.RenderEndsWith w (.ok text))
    (hfits : sink.Fits (text ++ "\n")) :
    arena.print w sink = some (.ok w, sink.adding (bytesOf (text ++ "\n"))) := by
  rw [print, render_run_eq_some_iff.mpr h, Option.map_some]
  simp only [lineOf, Sink.write_of_fits hfits]

end Arena

end TaggedWords
