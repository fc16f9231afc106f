import TaggedWords.Failure.Basic
import TaggedWords.Output.Sink
import TaggedWords.Walk.Render

/-!
# Writing values and reports

* `Arena.print`         writes a word and a line break to a sink;
* `Sink.writeReport`    writes the report of a failure and flushes the sink.
-/

namespace TaggedWords

def lineOf (text : String) : String := text ++ "\n"

/-- Writes a word on a line of its own and gives it back.  A word that cannot be rendered leaves the
sink alone; none if the rendering never ends. -/
def Arena.print (arena : Arena) (w : Word) (sink : Sink) : Option (Except Failure Word × Sink) :=
  (arena.render w).run.map fun
    | .error e => (.error (.arena e), sink)
    | .ok text =>
      match sink.write (lineOf text) with
      | (.ok (), sink) => (.ok w, sink)
      | (.error reason, sink) => (.error (.output reason), sink)

/-- Writes the report of a failure and flushes the sink, unless the writing failed. -/
def Sink.writeReport (sink : Sink) (e : Failure) : Except String Unit × Sink :=
  match sink.write e.report with
  | (.ok (), sink) => (sink.flush, sink)
  | (.error reason, sink) => (.error reason, sink)

end TaggedWords
