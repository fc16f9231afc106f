import TaggedWords.Execution.CommandLine
import TaggedWords.Proofs.Execution.Hosting
import TaggedWords.Proofs.Log.Levels
import TaggedWords.Proofs.Options.Accepted

/-!
# What a host process leaves behind

A host process prints the word that its program returns, unless a failure ends the process before
that.  Either way, what the steps of the program printed stays on standard output.  Under the
default log filter, standard error shows the report of the failure and nothing else.

* `exit?_of_ok`, `exit?_of_error`   the exit under a filter that shows no event;
* `on_hostToStdout_of_printed`, `on_hostToStdout_of_dangling`, `on_hostToStdout_of_failed`   hosting a
                             program on standard output, by the end of its course;
* `Course.Leaves`            what a process leaves behind, by the course of its program;
* `commandLine_leaves`       an accepted command line leaves that behind.
-/

namespace TaggedWords

/-! ## exits -/

namespace Execution

variable {α : Type} {action : Action α} {filter : Filter} {state : Execution}

theorem exit?_of_ok {a : α} (silent : ∀ events, filter.lines events = "")
    (h : action.on initial = some (.ok a, state)) :
    exit? filter action = some ⟨0, state.stdout, ""⟩ := by
  show (action.on initial).map (finish filter) = _
  rw [h, Option.map_some, finish, silent]

theorem exit?_of_error {e : Failure} (silent : ∀ events, filter.lines events = "")
    (h : action.on initial = some (.error e, state)) :
    exit? filter action = some ⟨shownStatus e.exitStatus, state.stdout, e.report⟩ := by
  show (action.on initial).map (finish filter) = _
  rw [h, Option.map_some, finish, silent, String.empty_append]

/-! ## hosting on standard output -/

variable {words : Nat} {program : List Step} {course : Course} {w : Word}

theorem delivers_to_stdout {arena : Arena} {text : String}
    (ends : arena.RenderEndsWith w (.ok text)) :
    arena.Delivers w {} (.ok w) (Sink.adding {} (bytesOf (text ++ "\n"))) :=
  .done ends (Sink.fits_empty _) rfl

theorem on_hostToStdout_of_printed {text : String} (hsize : Arena.checkSize words = .ok ())
    (takes : Program.Takes (.zeros words) program course) (hending : course.ending = .returned w)
    (ends : course.arena.RenderEndsWith w (.ok text)) :
    (hostToStdout (Program.run program) words).on initial =
      some (.ok (), ⟨none, course.output ++ (text ++ "\n"),
        (course.state (entering words initial)).events.push (.returned w)⟩) := by
  rw [hostToStdout,
    on_bind_of_ok (on_host_of_returned hsize rfl takes hending (delivers_to_stdout ends)),
    on_bind_of_ok (on_emit _ _), Sink.text_adding_empty]
  show some (_, Execution.mk _ ("" ++ course.output ++ (text ++ "\n")) _) = _
  rw [String.empty_append]

theorem on_hostToStdout_of_dangling {offset : Word} (hsize : Arena.checkSize words = .ok ())
    (takes : Program.Takes (.zeros words) program course) (hending : course.ending = .returned w)
    (ends : course.arena.RenderEndsWith w (.error (.outOfBounds offset course.arena.size))) :
    (hostToStdout (Program.run program) words).on initial =
      some (.error (.arena (.outOfBounds offset course.arena.size)), ⟨none, course.output,
        (course.state (entering words initial)).events.push (.returned w)⟩) := by
  rw [hostToStdout,
    on_bind_of_ok (on_host_of_returned hsize rfl takes hending (.dangling ends)),
    on_bind_of_ok (on_emit _ _), Sink.text_empty]
  show some (_, Execution.mk _ ("" ++ course.output ++ "") _) = _
  rw [String.empty_append, String.append_empty]

theorem on_hostToStdout_of_failed {e : Failure} (hsize : Arena.checkSize words = .ok ())
    (takes : Program.Takes (.zeros words) program course) (hending : course.ending = .failed e) :
    (hostToStdout (Program.run program) words).on initial =
      some (.error e, course.state (entering words initial)) := by
  rw [hostToStdout]
  exact on_bind_of_error (on_host_of_failed hsize rfl takes hending {}) _

end Execution

/-! ## what is left behind -/

/-- What a host process leaves behind: the printed lines, and then the line of the word that the
program returned, or the report of the failure that ended the process. -/
inductive Course.Leaves (course : Course) : Exit → Prop where
  | printed {w : Word} {text : String} (ending : course.ending = .returned w)
    (ends : course.arena.RenderEndsWith w (.ok text)) :
    Leaves course ⟨0, course.output ++ (text ++ "\n"), ""⟩
  | dangling {w offset : Word} (ending : course.ending = .returned w)
    (ends : course.arena.RenderEndsWith w (.error (.outOfBounds offset course.arena.size))) :
    Leaves course
      ⟨70, course.output, (Failure.arena (.outOfBounds offset course.arena.size)).report⟩
  | danglingCall {offset : Word}
    (ending : course.ending = .failed (.arena (.outOfBounds offset course.arena.size))) :
    Leaves course
      ⟨70, course.output, (Failure.arena (.outOfBounds offset course.arena.size)).report⟩
  | fault {code : Int} (ending : course.ending = .failed (.fault (Fault.ofCode code))) :
    Leaves course
      ⟨(code % 256).toNat, course.output, (Failure.fault (Fault.ofCode code)).report⟩

section
variable {filter : Filter} {words : Nat} {program : List Step} {course : Course}

open Execution in
theorem exit?_of_failed {e : Failure} (silent : ∀ events, filter.lines events = "")
    (hsize : Arena.checkSize words = .ok ())
    (takes : Program.Takes (.zeros words) program course) (hending : course.ending = .failed e) :
    exit? filter (hostToStdout (Program.run program) words) =
      some ⟨shownStatus e.exitStatus, course.output, e.report⟩ := by
  rw [exit?_of_error silent (on_hostToStdout_of_failed hsize takes hending)]
  show some (Exit.mk _ ("" ++ course.output) _) = _
  rw [String.empty_append]

open Execution in
theorem Program.Takes.exists_exit (silent : ∀ events, filter.lines events = "")
    (hsize : Arena.checkSize words = .ok ())
    (takes : Program.Takes (.zeros words) program course)
    (renders : ∀ w, course.ending = .returned w → ∃ outcome, course.arena.RenderEndsWith w outcome) :
    ∃ exit, exit? filter (hostToStdout (Program.run program) words) = some exit ∧
      course.Leaves exit := by
  cases hending : course.ending with
  | returned w =>
    obtain ⟨e | text, hends⟩ := renders w hending
    · obtain ⟨offset, rfl⟩ := Arena.dangling_of_renderEndsWith hends
      exact ⟨_, exit?_of_error silent (on_hostToStdout_of_dangling hsize takes hending hends),
        .dangling hending hends⟩
    · exact ⟨_, exit?_of_ok silent (on_hostToStdout_of_printed hsize takes hending hends),
        .printed hending hends⟩
  | failed e =>
    obtain ⟨before, step, later, -, hfails, -⟩ := takes.exists_split_of_failed hending
    refine ⟨_, exit?_of_failed silent hsize takes hending, ?_⟩
    rcases hfails.failure with ⟨code, -, rfl⟩ | ⟨offset, rfl⟩
    · have hcode : shownStatus (Failure.fault (Fault.ofCode code)).exitStatus =
          (code % 256).toNat := by
        rw [shownStatus, Failure.exitStatus, Fault.code_ofCode]
      rw [hcode]
      exact .fault hending
    · exact .danglingCall hending

end

/-- **What an accepted command line leaves behind under the default filter.**  Steps behind one that
fails have no effect. -/
theorem commandLine_leaves {arguments : List String} {env : Environment} {options : Options}
    {program : List Step} (accepted : Options.request arguments env = .ok (.run options))
    (filtered : options.logFilter = Options.default.logFilter)
    (orderly : Program.Orderly (.zeros options.heapWords) program) :
    ∃ course exit, Program.Takes (.zeros options.heapWords) program course ∧
      commandLine arguments env (Program.run program) = some exit ∧ course.Leaves exit ∧
      ∀ e, course.ending = .failed e →
        ∃ before step later, program = before ++ step :: later ∧
          step.Does course.arena (.fail e) ∧
          ∀ later', commandLine arguments env (Program.run (before ++ step :: later')) =
            some exit := by
  have hsize := Options.checkSize_of_request accepted
  have hcommand : ∀ steps, commandLine arguments env (Program.run steps) =
      Execution.exit? (Filter.ofText Options.default.logFilter)
        (Execution.hostToStdout (Program.run steps) options.heapWords) := by
    intro steps
    rw [commandLine, accepted, ← filtered]
    rfl
  obtain ⟨course, htakes, hrenders⟩ := orderly.exists_course
  obtain ⟨exit, hexit, hleaves⟩ := htakes.exists_exit Filter.lines_default hsize hrenders
  refine ⟨course, exit, htakes, (hcommand program).trans hexit, hleaves, fun e hending => ?_⟩
  obtain ⟨before, step, later, hprogram, hfails, hlater⟩ := htakes.exists_split_of_failed hending
  refine ⟨before, step, later, hprogram, hfails, fun later' => ?_⟩
  -- both programs fail in one course, so they leave one exit
  rw [hcommand, exit?_of_failed Filter.lines_default hsize (hlater later') hending, ← hexit,
    exit?_of_failed Filter.lines_default hsize htakes hending]

/-- The status is the lowest eight bits of the code, and the step behind it prints nothing. -/
theorem commandLine_leaves_fault :
    Options.request [] ⟨none, none⟩ = .ok (.run .default) ∧
      Program.Orderly (.zeros Options.default.heapWords)
        [.print 14 none, .error 300, .print 2 none] ∧
      commandLine [] ⟨none, none⟩ (Program.run [.print 14 none, .error 300, .print 2 none]) =
        some ⟨44, "7\n", "Error: Unknown error code: 300\n"⟩ := by
  have haccepted : Options.request [] ⟨none, none⟩ = .ok (.run .default) := rfl
  have hrenders : ∀ arena : Arena, arena.RenderEndsWith 14 (.ok "7") := fun arena =>
    ⟨1, Arena.run_renderWithin_of_atom (Arena.layer_of_atom (a := .int 7) (by decide))⟩
  have horderly : Program.Orderly (.zeros Options.default.heapWords)
      [.print 14 none, .error 300, .print 2 none] := by
    refine ⟨.inr ⟨⟨_, hrenders _⟩, nofun⟩, ?_⟩
    rintro arena output events answer -
    refine ⟨trivial, ?_⟩
    rintro arena output events answer ⟨⟩
  refine ⟨haccepted, horderly, ?_⟩
  obtain ⟨course, exit, htakes, hexit, hleaves, -⟩ := commandLine_leaves haccepted rfl horderly
  have hcourse := htakes.unique
    (.next (.print (hrenders _) nofun) (.fail .error [.print 2 none]))
  subst hcourse
  rw [hexit]
  cases hleaves with
  | printed ending => cases ending
  | dangling ending => cases ending
  | danglingCall ending => cases ending
  | @fault code ending =>
    have hfault : Fault.ofCode 300 = Fault.ofCode code :=
      Failure.fault.inj (Ending.failed.inj ending)
    have hcode : code = 300 := by
      rw [← Fault.code_ofCode code, ← hfault]
      rfl
    subst hcode
    rfl

end TaggedWords
