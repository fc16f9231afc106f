import TaggedWords.Proofs.Execution.Leaving
import TaggedWords.Proofs.Execution.Nested
import TaggedWords.Proofs.Log.Selection

/-!
# What a host process logs

The log filter of a host process decides which lines are shown on standard error, and nothing else.
The events are the same under every filter: the arena is allocated, the program returns a word unless
it fails before, and a failure ends the process unless the word is printed.  No call of the program
notes anything.

* `exit?_of_on`               the exit under a filter, for an execution that ends;
* `Takes.events_eq_nil`       a program that hosts no other notes nothing;
* `Closing`                   how a host process comes to its end, and what shows this;
* `Closing.map_line_events`   the lines of the log;
* `Course.Closes`             the end of a process, by the course of its program;
* `Takes.exists_closes`       the end is the same under every filter;
* `commandLine_logs`          so the filter of a command line selects lines, and nothing else.
-/

namespace TaggedWords

/-! ## one execution under many filters -/

namespace Execution

variable {α : Type} {action : Action α} {outcome : Except Failure α × Execution}

theorem exit?_of_on (filter : Filter) (h : action.on initial = some outcome) :
    exit? filter action = some (finish filter outcome) := by
  show (action.on initial).map (finish filter) = _
  rw [h, Option.map_some]

end Execution

/-! ## programs that note nothing -/

section
variable {arena : Arena} {step : Step} {program : List Step} {course : Course}

theorem Step.Does.events_eq_nil {arena' : Arena} {output : String} {events : List Event}
    {answer : Answer} (does : step.Does arena (.next arena' output events answer))
    (h : step.isNested = false) : events = [] := by
  cases does with
  | host => contradiction
  | _ => rfl

theorem Program.Takes.events_eq_nil (takes : Program.Takes arena program course)
    (h : ∀ step ∈ program, step.isNested = false) : course.events = [] := by
  induction takes with
  | done | leave | fail => rfl
  | @next arena arena' step later output events answer course does _ ih =>
    have hstep := does.events_eq_nil (h step List.mem_cons_self)
    have hrest := ih fun other hmem => h other (List.mem_cons_of_mem step hmem)
    show events ++ course.events = []
    rw [hstep, hrest]
    rfl

end

/-! ## lines -/

namespace Event

theorem line_allocated (words : Nat) :
    (allocated words).line = "DEBUG allocated arena words=" ++ toString words ++ "\n" := by
  show "DEBUG" ++ " " ++ ("allocated arena words=" ++ toString words) ++ "\n" = _
  rw [← String.append_assoc]
  rfl

theorem line_returned (w : Word) :
    (returned w).line = "DEBUG entry point returned " ++ Hex.word w ++ "\n" := by
  show "DEBUG" ++ " " ++ ("entry point returned " ++ Hex.word w) ++ "\n" = _
  rw [← String.append_assoc]
  rfl

theorem line_terminating (e : Failure) :
    (terminating e).line =
      "DEBUG terminating status=" ++ toString e.exitStatus ++ " error=" ++ e.message ++ "\n" := by
  show "DEBUG" ++ " " ++
    ("terminating status=" ++ toString e.exitStatus ++ " error=" ++ e.message) ++ "\n" = _
  simp only [← String.append_assoc]
  rfl

end Event

/-! ## the end of a process -/

structure Closing where
  returned : Option Word
  failure : Option Failure

namespace Closing

/-- What a host process notes that has an arena of so many words. -/
def events (closing : Closing) (words : Nat) : List Event :=
  .allocated words ::
    ((closing.returned.map .returned).toList ++ (closing.failure.map .terminating).toList)

def status (closing : Closing) : Nat :=
  match closing.failure with
  | some e => shownStatus e.exitStatus
  | none => 0

def report (closing : Closing) : String :=
  match closing.failure with
  | some e => e.report
  | none => ""

theorem level_of_mem_events {closing : Closing} {words : Nat} {event : Event}
    (h : event ∈ closing.events words) : event.level = .debug := by
  rcases List.mem_cons.mp h with rfl | h
  · rfl
  · rcases List.mem_append.mp h with h | h
    · obtain ⟨w, -, rfl⟩ := Option.map_eq_some_iff.mp (Option.mem_toList.mp h)
      rfl
    · obtain ⟨e, -, rfl⟩ := Option.map_eq_some_iff.mp (Option.mem_toList.mp h)
      rfl

/-- The status that is logged is not yet cut to eight bits. -/
theorem map_line_events (closing : Closing) (words : Nat) :
    (closing.events words).map Event.line =
      ("DEBUG allocated arena words=" ++ toString words ++ "\n") ::
        ((closing.returned.map fun w => "DEBUG entry point returned " ++ Hex.word w ++ "\n").toList ++
          (closing.failure.map fun e => "DEBUG terminating status=" ++ toString e.exitStatus ++
            " error=" ++ e.message ++ "\n").toList) := by
  obtain ⟨returned, failure⟩ := closing
  rw [events, List.map_cons, List.map_append, Event.line_allocated]
  congr 2
  · cases returned with
    | none => rfl
    | some w => exact congrArg (fun line => [line]) (Event.line_returned w)
  · cases failure with
    | none => rfl
    | some e => exact congrArg (fun line => [line]) (Event.line_terminating e)

end Closing

/-- How a host process ends, and what it wrote to standard output, by the course of its program. -/
inductive Course.Closes (course : Course) : Closing → String → Prop where
  | printed {w : Word} {text : String} (ending : course.ending = .returned w)
    (ends : course.arena.RenderEndsWith w (.ok text)) :
    Closes course ⟨some w, none⟩ (course.output ++ (text ++ "\n"))
  | dangling {w offset : Word} (ending : course.ending = .returned w)
    (ends : course.arena.RenderEndsWith w (.error (.outOfBounds offset course.arena.size))) :
    Closes course ⟨some w, some (.arena (.outOfBounds offset course.arena.size))⟩ course.output
  | failed {e : Failure} (ending : course.ending = .failed e) :
    Closes course ⟨none, some e⟩ course.output

theorem Arena.renderEndsWith_of_beyond {arena : Arena} {w : Word} {r : Reference}
    (value : Value.decode w = .tuple r) (h : arena.size ≤ r.index) :
    arena.RenderEndsWith w (.error (.outOfBounds r.offset arena.size)) := by
  have hnone : arena.words[r.index]? = none := Array.getElem?_eq_none h
  have hmissing : arena.record r = .error (.outOfBounds r.offset arena.size) := by
    rw [record, hnone]
  exact ⟨1, run_renderWithin_of_error (layer_of_dangling value hmissing)⟩

open Execution in
/-- Under every filter, a process comes to the same end. -/
theorem Program.Takes.exists_closes {words : Nat} {program : List Step} {course : Course}
    (hsize : Arena.checkSize words = .ok ())
    (takes : Program.Takes (.zeros words) program course) (hnothing : course.events = [])
    (renders : ∀ w, course.ending = .returned w → ∃ outcome, course.arena.RenderEndsWith w outcome) :
    ∃ closing stdout, course.Closes closing stdout ∧
      ∀ filter : Filter, exit? filter (hostToStdout (Program.run program) words) =
        some ⟨closing.status, stdout, filter.lines (closing.events words) ++ closing.report⟩ := by
  -- the state in which the program leaves the execution
  have hstate : course.state (entering words initial) =
      ⟨some course.arena, course.output, #[.allocated words]⟩ := by
    rw [Course.state, hnothing]
    show Execution.mk _ ("" ++ course.output) (#[.allocated words] ++ #[]) = _
    rw [String.empty_append, Array.append_empty]
  cases hending : course.ending with
  | returned w =>
    obtain ⟨e | text, hends⟩ := renders w hending
    · obtain ⟨offset, rfl⟩ := Arena.dangling_of_renderEndsWith hends
      refine ⟨_, _, .dangling hending hends, fun filter => ?_⟩
      rw [exit?_of_on filter (on_hostToStdout_of_dangling hsize takes hending hends), hstate]
      rfl
    · refine ⟨_, _, .printed hending hends, fun filter => ?_⟩
      rw [exit?_of_on filter (on_hostToStdout_of_printed hsize takes hending hends), hstate]
      show some (Exit.mk _ _ _) = some (Exit.mk _ _ (_ ++ ""))
      rw [String.append_empty]
      rfl
  | failed e =>
    refine ⟨_, _, .failed hending, fun filter => ?_⟩
    rw [exit?_of_on filter (on_hostToStdout_of_failed hsize takes hending), hstate]
    rfl

/-- **The log filter selects lines, and does nothing else.**  Under every filter an accepted command
line leaves the same status and standard output; standard error shows those of the same events that
the filter selects, and one report.  Filters of levels and targets select by these alone. -/
theorem commandLine_logs {arguments : List String} {env : Environment} {options : Options}
    {program : List Step} (accepted : Options.request arguments env = .ok (.run options))
    (unnested : ∀ step ∈ program, step.isNested = false)
    (orderly : Program.Orderly (.zeros options.heapWords) program) :
    (∃ course closing stdout, Program.Takes (.zeros options.heapWords) program course ∧
      course.Closes closing stdout ∧
      (closing.events options.heapWords).map Event.line =
        ("DEBUG allocated arena words=" ++ toString options.heapWords ++ "\n") ::
          ((closing.returned.map fun w =>
              "DEBUG entry point returned " ++ Hex.word w ++ "\n").toList ++
            (closing.failure.map fun e => "DEBUG terminating status=" ++ toString e.exitStatus ++
              " error=" ++ e.message ++ "\n").toList) ∧
      (∀ event ∈ closing.events options.heapWords, event.level = .debug) ∧
      ∀ arguments' env' options', Options.request arguments' env' = .ok (.run options') →
        options'.heapWords = options.heapWords →
        commandLine arguments' env' (Program.run program) =
            some ⟨closing.status, stdout,
              (Filter.ofText options'.logFilter).lines (closing.events options.heapWords) ++
                closing.report⟩ ∧
          ((Filter.ofText options'.logFilter).IsQuiet →
            commandLine arguments' env' (Program.run program) =
              some ⟨closing.status, stdout, closing.report⟩)) ∧
    (∀ text, text = "warn" ∨ text = "error" ∨ text = "" ∨ Filter.read? text = none →
      (Filter.ofText text).IsQuiet) ∧
    (∀ (filter : Filter) (event : Event), filter.shows event = true ↔
      ∃ d : Directive, d.DecidesIn filter.directives event ∧
        event.level.number ≤ d.threshold.number) ∧
    ∀ filter : Filter, (∀ d ∈ filter.directives, d.subject = .all) →
      ∀ event event' : Event, event.origin = event'.origin → event.level = event'.level →
        filter.shows event = filter.shows event' := by
  have hsize := Options.checkSize_of_request accepted
  obtain ⟨course, htakes, hrenders⟩ := orderly.exists_course
  obtain ⟨closing, stdout, hcloses, hexit⟩ :=
    htakes.exists_closes hsize (htakes.events_eq_nil unnested) hrenders
  refine ⟨⟨course, closing, stdout, htakes, hcloses, closing.map_line_events options.heapWords,
    fun _ => Closing.level_of_mem_events, ?_⟩, fun _ => Filter.isQuiet_ofText,
    fun _ _ => Filter.shows_iff, fun _ hsubjects _ _ => Filter.shows_congr hsubjects⟩
  intro arguments' env' options' haccepted hwords
  have hcommand : commandLine arguments' env' (Program.run program) =
      some ⟨closing.status, stdout,
        (Filter.ofText options'.logFilter).lines (closing.events options.heapWords) ++
          closing.report⟩ := by
    rw [commandLine, haccepted, ← hexit, ← hwords]
    rfl
  refine ⟨hcommand, fun hquiet => ?_⟩
  rw [hcommand, hquiet.lines, String.empty_append]

/-- A reference to nowhere is returned.  One filter shows the whole log, another its last line. -/
theorem commandLine_logs_dangling :
    Options.request ["--log", "debug"] ⟨none, none⟩ = .ok (.run ⟨100000, "debug"⟩) ∧
      (∀ step ∈ [Step.print 14 none, .ret 0x7ffffff9], step.isNested = false) ∧
      Program.Orderly (.zeros 100000) [.print 14 none, .ret 0x7ffffff9] ∧
      commandLine ["--log", "debug"] ⟨none, none⟩
          (Program.run [.print 14 none, .ret 0x7ffffff9]) =
        some ⟨70, "7\n", "DEBUG allocated arena words=100000\n" ++
          "DEBUG entry point returned 0x7ffffff9\n" ++
          "DEBUG terminating status=70 " ++
            "error=tuple at offset 0x7ffffff8 lies outside the arena (100000 words)\n" ++
          "Error: tuple at offset 0x7ffffff8 lies outside the arena (100000 words)\n"⟩ ∧
      commandLine ["--log", "tagrt::fault=debug"] ⟨none, none⟩
          (Program.run [.print 14 none, .ret 0x7ffffff9]) =
        some ⟨70, "7\n", "DEBUG terminating status=70 " ++
            "error=tuple at offset 0x7ffffff8 lies outside the arena (100000 words)\n" ++
          "Error: tuple at offset 0x7ffffff8 lies outside the arena (100000 words)\n"⟩ := by
  have haccepted : Options.request ["--log", "debug"] ⟨none, none⟩ =
      .ok (.run ⟨100000, "debug"⟩) := by decide +kernel
  have haccepted' : Options.request ["--log", "tagrt::fault=debug"] ⟨none, none⟩ =
      .ok (.run ⟨100000, "tagrt::fault=debug"⟩) := by decide +kernel
  have hunnested : ∀ step ∈ [Step.print 14 none, .ret 0x7ffffff9], step.isNested = false := by
    decide
  have hsize : (Arena.zeros 100000).size = 100000 := Arena.size_zeros 100000
  have hseven : (Arena.zeros 100000).RenderEndsWith 14 (.ok "7") :=
    ⟨1, Arena.run_renderWithin_of_atom (Arena.layer_of_atom (a := .int 7) (by decide))⟩
  have hnowhere : (Arena.zeros 100000).RenderEndsWith 0x7ffffff9
      (.error (.outOfBounds 0x7ffffff8 100000)) := by
    have hbeyond : (Arena.zeros 100000).RenderEndsWith 0x7ffffff9
        (.error (.outOfBounds 0x7ffffff8 (Arena.zeros 100000).size)) :=
      Arena.renderEndsWith_of_beyond (r := ⟨0x7ffffff8, by decide⟩) (by decide)
        (hsize.trans_le (by decide))
    rwa [hsize] at hbeyond
  have horderly : Program.Orderly (.zeros 100000) [.print 14 none, .ret 0x7ffffff9] := by
    refine ⟨.inr ⟨⟨_, hseven⟩, nofun⟩, ?_⟩
    rintro arena output events answer ⟨⟩
    refine ⟨⟨_, hnowhere⟩, ?_⟩
    rintro arena output events answer ⟨⟩
  refine ⟨haccepted, hunnested, horderly, ?_⟩
  obtain ⟨⟨course, closing, stdout, htakes, hcloses, -, -, hlogs⟩, -⟩ :=
    commandLine_logs haccepted hunnested horderly
  have hcourse := htakes.unique (.next (.print hseven nofun) (.leave .ret []))
  have harena : course.arena = .zeros 100000 := by rw [hcourse]; rfl
  have hending : course.ending = .returned 0x7ffffff9 := by rw [hcourse]; rfl
  have houtput : course.output = "7\n" := by rw [hcourse]; rfl
  cases hcloses with
  | @printed w text ending ends =>
    rw [harena, ← Ending.returned.inj (hending.symm.trans ending)] at ends
    exact absurd (Arena.renderEndsWith_unique ends hnowhere) nofun
  | failed ending => exact absurd (hending.symm.trans ending) nofun
  | @dangling w offset ending ends =>
    obtain rfl := Ending.returned.inj (hending.symm.trans ending)
    have hfailure : ArenaError.outOfBounds offset course.arena.size =
        .outOfBounds 0x7ffffff8 100000 := by
      rw [harena] at ends ⊢
      exact Except.error.inj (Arena.renderEndsWith_unique ends hnowhere)
    rw [hfailure, houtput] at hlogs
    have hdebug : Filter.ofText "debug" = .atLevel .debug :=
      Filter.ofText_of_directive (by decide) (by decide) (by decide +kernel)
    have hfault : Filter.ofText "tagrt::fault=debug" = ⟨[⟨"tagrt::fault", .all, some .debug⟩]⟩ :=
      Filter.ofText_of_directive (by decide) (by decide) (by decide +kernel)
    refine ⟨(hlogs _ _ _ haccepted rfl).1.trans ?_, (hlogs _ _ _ haccepted' rfl).1.trans ?_⟩
    · rw [hdebug]
      decide +kernel
    · rw [hfault]
      decide +kernel

end TaggedWords
