import TaggedWords.Proofs.Execution.Running
import TaggedWords.Proofs.Output.Writing

/-!
# Hosting a program from start to end

A host checks the size, then whether an arena is installed; then the program takes its course, and
the word that it returns is rendered, written and flushed.  The first of these that fails is the
result.  What was written by then stays written, and afterwards no arena is installed that was not
installed before.

* `Arena.Delivers`           how a word comes to a sink, by the first of four things that happen;
* `Delivers.exists_print`    printing and flushing do that;
* `on_host_of_returned`, `on_host_of_failed`   hosting a program, by the end of its course;
* `host_outcome`             every way in which hosting ends.
-/

namespace TaggedWords

/-! ## the word that a program returned -/

namespace Execution

variable {sink : Sink}

theorem flushed_of_none (h : sink.stuck = none) (w : Word) : flushed (.ok w) sink = .ok w := by
  have hflush : sink.flush = .ok () := by rw [Sink.flush, h]
  show Except.bind (sink.flush.mapError Failure.output) _ = _
  rw [hflush]
  rfl

theorem flushed_of_some {reason : String} (h : sink.stuck = some reason) (w : Word) :
    flushed (.ok w) sink = .error (.output reason) := by
  have hflush : sink.flush = .error reason := by rw [Sink.flush, h]
  show Except.bind (sink.flush.mapError Failure.output) _ = _
  rw [hflush]
  rfl

end Execution

namespace Arena

variable {arena : Arena} {w : Word} {sink sink' : Sink} {result : Except Failure Word}

/-- How a word comes to a sink: its rendering meets a record outside the arena, or the line does not
fit, or the sink cannot be flushed, or all goes well. -/
inductive Delivers (arena : Arena) (w : Word) (sink : Sink) : Except Failure Word → Sink → Prop where
  | dangling {offset : Word}
    (ends : arena.RenderEndsWith w (.error (.outOfBounds offset arena.size))) :
    Delivers arena w sink (.error (.arena (.outOfBounds offset arena.size))) sink
  | full {text : String} {limit : Nat} (ends : arena.RenderEndsWith w (.ok text))
    (limited : sink.limit = some limit)
    (short : limit - sink.taken.length < (bytesOf (text ++ "\n")).length) :
    Delivers arena w sink (.error (.output sink.full))
      (sink.adding ((bytesOf (text ++ "\n")).take (limit - sink.taken.length)))
  | stuck {text reason : String} (ends : arena.RenderEndsWith w (.ok text))
    (fits : sink.Fits (text ++ "\n")) (stuck : sink.stuck = some reason) :
    Delivers arena w sink (.error (.output reason)) (sink.adding (bytesOf (text ++ "\n")))
  | done {text : String} (ends : arena.RenderEndsWith w (.ok text)) (fits : sink.Fits (text ++ "\n"))
    (flushes : sink.stuck = none) :
    Delivers arena w sink (.ok w) (sink.adding (bytesOf (text ++ "\n")))

theorem exists_delivers (h : ∃ outcome, arena.RenderEndsWith w outcome) (sink : Sink) :
    ∃ result sink', arena.Delivers w sink result sink' := by
  obtain ⟨e | text, hends⟩ := h
  · obtain ⟨offset, rfl⟩ := dangling_of_renderEndsWith hends
    exact ⟨_, _, .dangling hends⟩
  · by_cases hfits : sink.Fits (text ++ "\n")
    · cases hstuck : sink.stuck with
      | some reason => exact ⟨_, _, .stuck hends hfits hstuck⟩
      | none => exact ⟨_, _, .done hends hfits hstuck⟩
    · obtain ⟨limit, hlimit, hshort⟩ := Sink.not_fits_iff.mp hfits
      exact ⟨_, _, .full hends hlimit hshort⟩

theorem Delivers.exists_print (h : arena.Delivers w sink result sink') :
    ∃ printed, arena.print w sink = some (printed, sink') ∧
      Execution.flushed printed sink' = result := by
  cases h with
  | dangling ends => exact ⟨_, print_of_error ends sink, rfl⟩
  | full ends limited short => exact ⟨_, print_of_short ends limited short, rfl⟩
  | stuck ends fits stuck => exact ⟨_, print_of_fits ends fits, Execution.flushed_of_some stuck w⟩
  | done ends fits flushes => exact ⟨_, print_of_fits ends fits, Execution.flushed_of_none flushes w⟩

end Arena

/-! ## hosting -/

namespace Execution

variable {words : Nat} {sink sink' : Sink} {program : List Step} {state : Execution}
  {course : Course} {w : Word} {result : Except Failure Word}

/-- The state in which hosting a program enters it. -/
def entering (words : Nat) (state : Execution) : Execution :=
  ⟨some (.zeros words), state.stdout, state.events.push (.allocated words)⟩

theorem on_host_of_failed {e : Failure} (hsize : Arena.checkSize words = .ok ())
    (hfree : state.installed = none) (takes : Program.Takes (.zeros words) program course)
    (hending : course.ending = .failed e) (sink : Sink) :
    (host (Program.run program) words sink).on state =
      some (.error e, course.state (entering words state)) := by
  have hrun : (Program.run program).on (entering words state) = _ :=
    Program.on_run_of_takes takes rfl
  rw [Course.result, hending] at hrun
  rw [on_host_of_free hsize hfree, enter]
  exact on_bind_of_error hrun _

theorem on_host_of_returned (hsize : Arena.checkSize words = .ok ())
    (hfree : state.installed = none) (takes : Program.Takes (.zeros words) program course)
    (hending : course.ending = .returned w) (delivers : course.arena.Delivers w sink result sink') :
    (host (Program.run program) words sink).on state =
      some (.ok ⟨result, sink', some course.answers⟩,
        ⟨none, state.stdout ++ course.output,
          (course.state (entering words state)).events.push (.returned w)⟩) := by
  have hrun : (Program.run program).on (entering words state) = _ :=
    Program.on_run_of_takes takes rfl
  rw [Course.result, hending] at hrun
  obtain ⟨printed, hprint, hflushed⟩ := delivers.exists_print
  have hprinted : ∀ left : Execution, left.installed = some course.arena →
      (printTo sink w).on left = some (.ok (printed, sink'), left) := by
    intro left hleft
    rw [on_printTo_of_some hleft, hprint]
    rfl
  rw [on_host_of_free hsize hfree, enter, ← hflushed]
  refine (on_bind_of_ok hrun _).trans ?_
  refine (on_bind_of_ok (on_note _ _) _).trans ?_
  exact on_bind_of_ok (hprinted _ rfl) _

/-- **Hosting ends with its first failure, or delivers the word of the program.**  What is installed
afterwards is what was installed before. -/
theorem host_outcome (words : Nat) (sink : Sink) (program : List Step) (state : Execution) :
    (words < 2 → (host (Program.run program) words sink).on state =
      some (.ok ⟨.error (.arena (.tooSmall words)), sink, none⟩, state)) ∧
    (2 ^ 30 < words → (host (Program.run program) words sink).on state =
      some (.ok ⟨.error (.arena (.tooLarge words (2 ^ 30))), sink, none⟩, state)) ∧
    (2 ≤ words → words ≤ 2 ^ 30 → state.installed.isSome →
      (host (Program.run program) words sink).on state =
        some (.ok ⟨.error .alreadyInstalled, sink, none⟩,
          { state with events := state.events.push (.allocated words) })) ∧
    (2 ≤ words → words ≤ 2 ^ 30 → state.installed = none → Program.Orderly (.zeros words) program →
      ∃ course, Program.Takes (.zeros words) program course ∧
        (∀ w, course.ending = .returned w →
          ∃ result sink', course.arena.Delivers w sink result sink' ∧
            (host (Program.run program) words sink).on state =
              some (.ok ⟨result, sink', some course.answers⟩,
                ⟨none, state.stdout ++ course.output,
                  (course.state (entering words state)).events.push (.returned w)⟩)) ∧
        (∀ e, course.ending = .failed e →
          (∃ step ∈ program, step.Does course.arena (.fail e)) ∧
            (host (Program.run program) words sink).on state =
              some (.error e, course.state (entering words state)))) := by
  have hmin : Arena.minWords = 2 := rfl
  have hmax : Arena.maxWords = 2 ^ 30 := rfl
  refine ⟨fun hsmall => ?_, fun hlarge => ?_, fun hlow hhigh hinstalled => ?_,
    fun hlow hhigh hfree horderly => ?_⟩
  · have hsize : Arena.checkSize words = .error (.tooSmall words) := by
      rw [Arena.checkSize, hmin, if_pos hsmall]
    exact on_host_of_error hsize sink state
  · have hsize : Arena.checkSize words = .error (.tooLarge words (2 ^ 30)) := by
      rw [Arena.checkSize, hmin, hmax, if_neg (by omega), if_pos hlarge]
    exact on_host_of_error hsize sink state
  · have hsize := (Arena.checkSize_eq_ok_iff words).mpr ⟨hlow, hhigh⟩
    exact on_host_of_installed hsize hinstalled sink
  · have hsize := (Arena.checkSize_eq_ok_iff words).mpr ⟨hlow, hhigh⟩
    obtain ⟨course, htakes, hrenders⟩ := horderly.exists_course
    refine ⟨course, htakes, fun w hending => ?_, fun e hending => ?_⟩
    · obtain ⟨result, sink', hdelivers⟩ := Arena.exists_delivers (hrenders w hending) sink
      exact ⟨result, sink', hdelivers, on_host_of_returned hsize hfree htakes hending hdelivers⟩
    · obtain ⟨before, step, later, rfl, hfails, -⟩ := htakes.exists_split_of_failed hending
      exact ⟨⟨step, List.mem_append_right _ List.mem_cons_self, hfails⟩,
        on_host_of_failed hsize hfree htakes hending sink⟩

/-- The line of a tuple does not fit into three bytes: they stay, and the arena does not. -/
theorem host_outcome_short_sink :
    Program.Orderly (.zeros 4) [.store 0 [1, 14], .ret 1] ∧
      (host (Program.run [.store 0 [1, 14], .ret 1]) 4 ⟨some 3, "full", none, []⟩).on initial =
        some (.ok ⟨.error (.output "full"), ⟨some 3, "full", none, bytesOf "(7)"⟩, some [.done]⟩,
          ⟨none, "", #[.allocated 4, .returned 1]⟩) := by
  have hends : (Arena.write (.zeros 4) 0 [1, 14]).RenderEndsWith 1 (.ok "(7)") :=
    ⟨2, by decide +kernel⟩
  have hrange : ∀ i < [1, 14].length, 0 + i < (Arena.zeros 4).size := by decide
  have horderly : Program.Orderly (.zeros 4) [.store 0 [1, 14], .ret 1] := by
    refine ⟨hrange, ?_⟩
    rintro arena' output events answer ⟨⟩
    refine ⟨⟨_, hends⟩, ?_⟩
    rintro arena' output events answer ⟨⟩
  obtain ⟨-, -, -, hhost⟩ :=
    host_outcome 4 ⟨some 3, "full", none, []⟩ [.store 0 [1, 14], .ret 1] initial
  obtain ⟨course, htakes, hreturned, -⟩ := hhost (by decide) (by decide) rfl horderly
  have hcourse := htakes.unique (.next (.store hrange) (.leave .ret []))
  subst hcourse
  obtain ⟨result, sink', hdelivers, hrun⟩ := hreturned 1 rfl
  obtain ⟨printed, hprint, hflushed⟩ := hdelivers.exists_print
  have hshort : (Arena.write (.zeros 4) 0 [1, 14]).print 1 ⟨some 3, "full", none, []⟩ = _ :=
    Arena.print_of_short hends rfl (by decide +kernel)
  have hbytes : (bytesOf ("(7)" ++ "\n")).take 3 = bytesOf "(7)" := by decide +kernel
  cases hshort.symm.trans hprint
  cases hflushed
  refine ⟨horderly, hrun.trans ?_⟩
  rw [← hbytes]
  rfl

end Execution

end TaggedWords
