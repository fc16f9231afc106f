import TaggedWords.Proofs.Execution.Actions
import TaggedWords.Proofs.Execution.Courses

/-!
# Running a program

The run of a step does to an execution what the rule of the step says, and the run of a program what
its course says.

* `Effect.result`, `Effect.state`   what a step with an effect gives, and the state it leaves;
* `Course.result`, `Course.state`   the same for a program with a course;
* `Course.state_after`         a course goes on from the state that its first step left;
* `Step.on_run_of_does`        a step runs as its rule says;
* `Program.on_run_of_takes`    a program runs as its course says.
-/

namespace TaggedWords

/-! ## results and states -/

namespace Effect

def result : Effect → Except Failure Progress
  | .next _ _ _ answer => .ok (.next answer)
  | .leave w => .ok (.leave w)
  | .fail e => .error e

def state (before : Execution) : Effect → Execution
  | .next arena output events _ =>
    ⟨some arena, before.stdout ++ output, before.events ++ events.toArray⟩
  | .leave _ | .fail _ => before

theorem state_next (before : Execution) (arena : Arena) (output : String) (answer : Answer) :
    (Effect.next arena output [] answer).state before =
      ⟨some arena, before.stdout ++ output, before.events⟩ := by
  rw [state, Array.append_empty]

theorem state_next_quiet (before : Execution) (arena : Arena) (answer : Answer) :
    (Effect.next arena "" [] answer).state before = { before with installed := some arena } := by
  rw [state_next, String.append_empty]

end Effect

namespace Course

def result (course : Course) : Except Failure (Word × List Answer) :=
  match course.ending with
  | .returned w => .ok (w, course.answers)
  | .failed e => .error e

def state (course : Course) (before : Execution) : Execution :=
  ⟨some course.arena, before.stdout ++ course.output, before.events ++ course.events.toArray⟩

theorem state_ended {arena : Arena} {before : Execution} (h : before.installed = some arena)
    (ending : Ending) : (ended arena ending).state before = before := by
  show Execution.mk (some arena) (before.stdout ++ "") (before.events ++ #[]) = before
  rw [String.append_empty, Array.append_empty, ← h]

theorem state_after (course : Course) (before : Execution) (arena : Arena) (output : String)
    (events : List Event) (answer : Answer) :
    (course.after output events answer).state before =
      course.state ((Effect.next arena output events answer).state before) := by
  simp only [state, after, Effect.state, String.append_assoc, Array.append_assoc,
    List.append_toArray]

end Course

/-! ## running steps and programs -/

namespace Execution

variable {arena : Arena} {state : Execution}

theorem on_storeAnswer (h : state.installed = some arena) (dest : Option Nat) (w : Word) :
    (storeAnswer dest w).on state =
      some (.ok (.next (.word w)), { state with installed := some (arena.writeAnswer dest w) }) := by
  cases dest with
  | none =>
    rw [Arena.writeAnswer, ← h]
    rfl
  | some index =>
    rw [storeAnswer, on_bind_of_ok (on_store_of_some h index [w])]
    rfl

theorem on_equal_of_ends {a b : Word} {outcome : Except ArenaError Word}
    (h : state.installed = some arena) (ends : arena.EqualEndsWith a b outcome) :
    (equal a b).on state = some (outcome.mapError Failure.arena, state) := by
  rw [on_equal_of_some h, Arena.run_equalWord_eq_some_iff.mpr ends]
  rfl

theorem on_print_of_ends {w : Word} {outcome : Except ArenaError String}
    (h : state.installed = some arena) (ends : arena.RenderEndsWith w outcome) :
    (print w).on state = some (printed w state outcome) := by
  rw [on_print_of_some h, Arena.render_run_eq_some_iff.mpr ends]
  rfl

theorem on_load_of_found {index : Nat} {w : Word} (h : state.installed = some arena)
    (found : arena.words[index]? = some w) : (load index).on state = some (.ok w, state) := by
  have hread : arena.read index = w := by
    rw [Arena.read, Array.getD_eq_getD_getElem?, found]
    rfl
  rw [on_load_of_some h, hread]

theorem on_host_of_refused {α : Type} {entry : Action (Word × α)} (h : state.installed = some arena)
    (words : Nat) (sink : Sink) :
    (host entry words sink).on state =
      some (.ok ⟨.error (refusal words), sink, none⟩,
        { state with events := state.events ++ (refusalEvents words).toArray }) := by
  cases hc : Arena.checkSize words with
  | error e =>
    rw [on_host_of_error hc, refusal, refusalEvents, hc, Array.append_empty]
  | ok u =>
    have hsome : state.installed.isSome = true := by rw [h]; rfl
    rw [on_host_of_installed hc hsome, refusal, refusalEvents, hc]
    rfl

end Execution

open Execution in
/-- **A step does to an execution what its rule says.** -/
theorem Step.on_run_of_does {arena : Arena} {step : Step} {effect : Effect} {before : Execution}
    (does : step.Does arena effect) (h : before.installed = some arena) :
    step.run.on before = some (effect.result, effect.state before) := by
  -- where a rule leaves the arena as it is, nothing is installed anew
  have hsame : { before with installed := some arena } = before := by rw [← h]
  cases does with
  | store range =>
    rw [Step.run, on_bind_of_ok (on_store_of_some h _ _), Effect.state_next_quiet]
    rfl
  | load found =>
    rw [Step.run, on_bind_of_ok (on_load_of_found h found), Effect.state_next_quiet, hsame]
    rfl
  | installed =>
    rw [Step.run, on_bind_of_ok (on_isInstalled before), Effect.state_next_quiet, hsame, h]
    rfl
  | equal ends range =>
    rw [Step.run, on_bind_of_ok (on_equal_of_ends h ends), on_storeAnswer h,
      Effect.state_next_quiet]
    rfl
  | equalFails ends =>
    rw [Step.run, on_bind_of_error (on_equal_of_ends h ends)]
    rfl
  | print ends range =>
    rw [Step.run, on_bind_of_ok (on_print_of_ends h ends), on_storeAnswer]
    · rw [Effect.state_next]
      rfl
    · exact h
  | printFails ends =>
    rw [Step.run, on_bind_of_error (on_print_of_ends h ends)]
    rfl
  | printAt found ends =>
    rw [Step.run, on_bind_of_ok (on_load_of_found h found),
      on_bind_of_ok (on_print_of_ends h ends)]
    rw [Effect.state_next, ← h]
    rfl
  | printAtFails found ends =>
    rw [Step.run, on_bind_of_ok (on_load_of_found h found),
      on_bind_of_error (on_print_of_ends h ends)]
    rfl
  | error =>
    rw [Step.run, on_error]
    rfl
  | host =>
    rw [Step.run, on_bind_of_ok (on_host_of_refused h _ _)]
    simp only [Effect.state, String.append_empty, ← h]
    rfl
  | ret =>
    rw [Step.run, on_pure]
    rfl
  | retAt found =>
    rw [Step.run, on_bind_of_ok (on_load_of_found h found)]
    rfl

open Execution in
/-- **A program does to an execution what its course says.** -/
theorem Program.on_run_of_takes {arena : Arena} {program : List Step} {course : Course}
    {before : Execution} (takes : Program.Takes arena program course)
    (h : before.installed = some arena) :
    (Program.run program).on before = some (course.result, course.state before) := by
  -- the rest of a course begins in the state that its first step left behind
  induction takes generalizing before with
  | done =>
    rw [Program.run, on_pure, Course.state_ended h]
    rfl
  | leave does later =>
    rw [Program.run, on_bind_of_ok (Step.on_run_of_does does h), Course.state_ended h]
    rfl
  | fail does later =>
    rw [Program.run, on_bind_of_error (Step.on_run_of_does does h), Course.state_ended h]
    rfl
  | @next arena arena' step later output events answer course does _ ih =>
    rw [Program.run, on_bind_of_ok (Step.on_run_of_does does h),
      Course.state_after course before arena']
    show (Program.run later >>= fun p => pure (p.1, answer :: p.2)).on _ = _
    rw [on_bind, ih rfl, Course.result, Course.result, Course.after]
    cases course.ending <;> rfl

end TaggedWords
