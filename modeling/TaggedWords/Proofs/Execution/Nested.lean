import TaggedWords.Proofs.Execution.Hosting
import TaggedWords.Proofs.Execution.Steady

/-!
# Programs that try to host programs

While a program runs, an arena is installed; so every program that it tries to host is refused before
its first step.  Such a refusal leaves the arena, the slot in which it is installed and all output as
they were.  A program that does without those steps therefore does the same.

* `refusal_of_small`, `refusal_of_large`, `refusal_of_sized`   why a program is refused;
* `Program.Passes`           the steps that lead from one state to another;
* `on_run_of_passes`         a program goes on from where its first steps led;
* `Program.withoutNested`, `Program.ownAnswers`   the steps that host nothing, and their answers;
* `Program.leaves_withoutNested`   a program does the same without the others;
* `nested_runs_change_nothing`     each nested run is refused, and may as well be left out.
-/

namespace TaggedWords

namespace Execution

/-! ## why a program is refused -/

theorem refusal_of_small {words : Nat} (h : words < 2) :
    refusal words = .arena (.tooSmall words) := by
  have hsize : Arena.checkSize words = .error (.tooSmall words) := if_pos h
  rw [refusal, hsize]

theorem refusal_of_large {words : Nat} (h : 2 ^ 30 < words) :
    refusal words = .arena (.tooLarge words (2 ^ 30)) := by
  have hmin : Arena.minWords = 2 := rfl
  have hsize : Arena.checkSize words = .error (.tooLarge words (2 ^ 30)) := by
    rw [Arena.checkSize, if_neg (by omega)]
    exact if_pos h
  rw [refusal, hsize]

theorem refusal_of_sized {words : Nat} (hlow : 2 ≤ words) (hhigh : words ≤ 2 ^ 30) :
    refusal words = .alreadyInstalled := by
  rw [refusal, (Arena.checkSize_eq_ok_iff words).mpr ⟨hlow, hhigh⟩]

/-- The state after a refusal: what differs is what was noted. -/
def refused (words : Nat) (state : Execution) : Execution :=
  { state with events := state.events ++ (refusalEvents words).toArray }

end Execution

open Execution

namespace Program

variable {before : List Step} {answers : List Answer} {state state' last : Execution}

/-! ## the steps before a nested run -/

/-- Steps that are taken one after the other, none of which ends the execution. -/
inductive Passes : Execution → List Step → List Answer → Execution → Prop where
  | nil (state : Execution) : Passes state [] [] state
  | cons {state between last : Execution} {step : Step} {later : List Step} {answer : Answer}
    {answers : List Answer} (goes : step.run.on state = some (.ok (.next answer), between))
    (others : Passes between later answers last) :
    Passes state (step :: later) (answer :: answers) last

theorem Passes.isSome (h : Passes state before answers last)
    (hinstalled : state.installed.isSome = true) : last.installed.isSome = true := by
  induction h with
  | nil => exact hinstalled
  | @cons state between last step later answer answers goes _ ih =>
    exact ih (step.steady.isSome_of_on hinstalled goes)

theorem on_run_cons_of_next {step : Step} {answer : Answer} (rest : List Step)
    (h : step.run.on state = some (.ok (.next answer), state')) :
    (Program.run (step :: rest)).on state =
      ((fun p => (p.1, answer :: p.2)) <$> Program.run rest).on state' := by
  rw [Program.run, on_bind_of_ok h, map_eq_pure_bind]

theorem on_run_of_passes (rest : List Step) (h : Passes state before answers last) :
    (Program.run (before ++ rest)).on state =
      ((fun p => (p.1, answers ++ p.2)) <$> Program.run rest).on last := by
  induction h with
  | nil state => exact congrArg (Action.on · state) (id_map _).symm
  | cons goes _ ih =>
    rw [List.cons_append, on_run_cons_of_next _ goes, Action.on_map, ih, ← Action.on_map,
      ← comp_map]
    rfl

end Program

/-! ## leaving nested runs out -/

def Step.isNested : Step → Bool
  | .host _ _ _ => true
  | _ => false

theorem Step.exists_host_of_isNested {step : Step} (h : step.isNested = true) :
    ∃ words sink nested, step = .host words sink nested := by
  cases step with
  | host words sink nested => exact ⟨words, sink, nested, rfl⟩
  | _ => contradiction

namespace Program

variable {rest : List Step} {state : Execution}

def withoutNested (program : List Step) : List Step := program.filter fun step => !step.isNested

/-- Of the answers of a program's steps, those of the steps that host nothing. -/
def ownAnswers : List Step → List Answer → List Answer
  | step :: rest, answer :: answers =>
    if step.isNested then ownAnswers rest answers else answer :: ownAnswers rest answers
  | _, _ => []

def ownReturn (program : List Step) (returned : Word × List Answer) : Word × List Answer :=
  (returned.1, ownAnswers program returned.2)

theorem on_run_nested (words : Nat) (sink : Sink) (nested : List Step)
    (h : state.installed.isSome = true) :
    (Step.host words sink nested).run.on state =
      some (.ok (.next (.hosted (.error (refusal words)) sink)), refused words state) := by
  obtain ⟨arena, harena⟩ := Option.isSome_iff_exists.mp h
  rw [Step.run, on_bind_of_ok (on_host_of_refused harena words sink)]
  rfl

theorem leaves_nested_cons (words : Nat) (sink : Sink) (nested rest : List Step)
    (h : state.installed.isSome = true) :
    (ownReturn (.host words sink nested :: rest) <$>
        Program.run (.host words sink nested :: rest)).leaves state =
      (ownReturn rest <$> Program.run rest).leaves state := by
  -- the rest begins in a state that differs in what was noted, which is nothing to it
  have hsame : (refused words state).unnoted = state.unnoted := rfl
  have hrest : (Program.run rest).leaves (refused words state) = (Program.run rest).leaves state :=
    (Program.steady rest).leaves_eq h hsame
  rw [Action.leaves_map, Action.leaves_map, ← hrest, Action.leaves,
    on_run_cons_of_next rest (on_run_nested words sink nested h), ← Action.leaves,
    Action.leaves_map, Option.map_map]
  refine congrArg (fun f => Option.map f _) (funext fun left => ?_)
  rcases left with ⟨e | p, left⟩ <;> rfl

theorem leaves_own_cons {step : Step} (hstep : step.isNested = false)
    (h : ∀ progress state', step.run.on state = some (.ok progress, state') →
      (ownReturn rest <$> Program.run rest).leaves state' =
        (Program.run (withoutNested rest)).leaves state') :
    (ownReturn (step :: rest) <$> Program.run (step :: rest)).leaves state =
      (Program.run (step :: withoutNested rest)).leaves state := by
  rw [Program.run, Program.run, map_bind]
  refine Action.leaves_bind_congr fun progress state' hon => ?_
  cases progress with
  | leave w => rfl
  | next answer =>
    show (ownReturn (step :: rest) <$>
        (Program.run rest >>= fun p => pure (p.1, answer :: p.2))).leaves state' =
      (Program.run (withoutNested rest) >>= fun p => pure (p.1, answer :: p.2)).leaves state'
    rw [← map_eq_pure_bind, ← map_eq_pure_bind, Action.leaves_map, Action.leaves_map,
      Action.leaves_map, ← h _ _ hon, Action.leaves_map, Option.map_map, Option.map_map]
    refine congrArg (fun f => Option.map f _) (funext fun left => ?_)
    rcases left with ⟨e | p, left⟩
    · rfl
    · have hown : ownAnswers (step :: rest) (answer :: p.2) = answer :: ownAnswers rest p.2 := by
        rw [ownAnswers, hstep]
        rfl
      show (Except.ok (p.1, ownAnswers (step :: rest) (answer :: p.2)), left) = _
      rw [hown]
      rfl

/-- **A program does the same without its nested runs.** -/
theorem leaves_withoutNested (program : List Step) (h : state.installed.isSome = true) :
    (ownReturn program <$> Program.run program).leaves state =
      (Program.run (withoutNested program)).leaves state := by
  induction program generalizing state with
  | nil => rfl
  | cons step rest ih =>
    cases hnested : step.isNested with
    | true =>
      obtain ⟨words, sink, nested, rfl⟩ := Step.exists_host_of_isNested hnested
      exact (leaves_nested_cons words sink nested rest h).trans (ih h)
    | false =>
      have hfilter : withoutNested (step :: rest) = step :: withoutNested rest :=
        List.filter_cons_of_pos (by rw [hnested]; rfl)
      rw [hfilter]
      exact leaves_own_cons hnested fun progress state' hon =>
        ih (step.steady.isSome_of_on h hon)

end Program

/-! ## hosting without nested runs -/

def HostRun.mapEntered {α β : Type} (f : α → β) (run : HostRun α) : HostRun β :=
  ⟨run.result, run.sink, run.entered.map f⟩

namespace Execution

variable {α β : Type} {state : Execution}

/-- What is left behind once a program has returned a word with its answers. -/
def delivered (sink : Sink) (returned : Word × α) (left : Execution) :
    Option (Except Failure (HostRun α) × Execution) :=
  ((printTo sink returned.1).on left).map fun outcome =>
    (outcome.1.map fun printed => ⟨flushed printed.1 printed.2, printed.2, some returned.2⟩,
      { left with installed := none })

theorem on_printTo_of_none (h : state.installed = none) (sink : Sink) (w : Word) :
    (printTo sink w).on state = some (.ok (.error .notInstalled, sink), state) := by
  rw [printTo, on_bind_of_ok (on_get state), h]
  rfl

theorem leaves_enter (entry : Action (Word × α)) (sink : Sink) (state : Execution) :
    (enter entry sink).leaves state = (entry.leaves state).bind fun left =>
      match left.1 with
      | .error e => some (.error e, left.2)
      | .ok returned => delivered sink returned left.2 := by
  rw [Action.leaves, enter, on_bind, Action.leaves]
  rcases entry.on state with _ | ⟨e | ⟨w, answers⟩, ⟨installed, stdout, events⟩⟩
  · rfl
  · rfl
  · show Option.map _ (Action.on (note (.returned w) >>= fun _ => _) _) = delivered sink _ _
    rw [on_bind_of_ok (on_note _ _), on_bind, delivered]
    cases installed with
    | none =>
      rw [on_printTo_of_none rfl, on_printTo_of_none rfl]
      rfl
    | some arena =>
      rw [on_printTo_of_some rfl, on_printTo_of_some rfl]
      rcases arena.print w sink with _ | ⟨printed, sink'⟩ <;> rfl

theorem delivered_map (f : α → β) (sink : Sink) (returned : Word × α) (left : Execution) :
    delivered sink (returned.1, f returned.2) left =
      (delivered sink returned left).map fun outcome =>
        (outcome.1.map (HostRun.mapEntered f), outcome.2) := by
  rw [delivered, delivered, Option.map_map]
  refine congrArg (fun g => Option.map g _) (funext fun outcome => ?_)
  rcases outcome with ⟨e | printed, left⟩ <;> rfl

theorem leaves_enter_congr {entry : Action (Word × α)} {entry' : Action (Word × β)} {f : α → β}
    (h : ((fun p => (p.1, f p.2)) <$> entry).leaves state = entry'.leaves state) (sink : Sink) :
    (HostRun.mapEntered f <$> enter entry sink).leaves state =
      (enter entry' sink).leaves state := by
  rw [Action.leaves_map, leaves_enter, leaves_enter, ← h, Action.leaves_map]
  rcases entry.leaves state with _ | ⟨e | returned, left⟩
  · rfl
  · rfl
  · exact (delivered_map f sink returned left).symm

/-- **Hosting a program leaves behind what hosting it without its nested runs does.** -/
theorem leaves_host_withoutNested (program : List Step) (words : Nat) (sink : Sink)
    (state : Execution) :
    (HostRun.mapEntered (Program.ownAnswers program) <$>
        host (Program.run program) words sink).leaves state =
      (host (Program.run (Program.withoutNested program)) words sink).leaves state := by
  cases hsize : Arena.checkSize words with
  | error e =>
    rw [Action.leaves_map, Action.leaves, on_host_of_error hsize, Action.leaves,
      on_host_of_error hsize]
    rfl
  | ok u =>
    cases hfree : state.installed with
    | some arena =>
      have hinstalled : state.installed.isSome = true := by rw [hfree]; rfl
      rw [Action.leaves_map, Action.leaves, on_host_of_installed hsize hinstalled, Action.leaves,
        on_host_of_installed hsize hinstalled]
      rfl
    | none =>
      rw [Action.leaves_map, Action.leaves, on_host_of_free hsize hfree, Action.leaves,
        on_host_of_free hsize hfree, ← Action.leaves, ← Action.leaves, ← Action.leaves_map]
      exact leaves_enter_congr (Program.leaves_withoutNested program rfl) sink

/-- **Nested runs are refused and change nothing.**  Without them a program leaves behind the same
result, output, answers of its other steps and installed arena. -/
theorem nested_runs_change_nothing (program : List Step) (words : Nat) (sink : Sink)
    (state : Execution) :
    (∀ before nestedWords nestedSink nested later,
      program = before ++ .host nestedWords nestedSink nested :: later →
      ∀ answers reached, Program.Passes (entering words state) before answers reached →
        (∀ entry : Action (Word × List Answer),
          (host entry nestedWords nestedSink).on reached =
            some (.ok ⟨.error (refusal nestedWords), nestedSink, none⟩,
              refused nestedWords reached)) ∧
        (Program.run program).on (entering words state) =
          ((fun p => (p.1, answers ++ .hosted (.error (refusal nestedWords)) nestedSink :: p.2)) <$>
            Program.run later).on (refused nestedWords reached)) ∧
    (∀ nestedWords,
      (nestedWords < 2 → refusal nestedWords = .arena (.tooSmall nestedWords)) ∧
      (2 ^ 30 < nestedWords → refusal nestedWords = .arena (.tooLarge nestedWords (2 ^ 30))) ∧
      (2 ≤ nestedWords → nestedWords ≤ 2 ^ 30 → refusal nestedWords = .alreadyInstalled)) ∧
    (HostRun.mapEntered (Program.ownAnswers program) <$>
        host (Program.run program) words sink).leaves state =
      (host (Program.run (Program.withoutNested program)) words sink).leaves state := by
  refine ⟨?_, fun nestedWords => ⟨refusal_of_small, refusal_of_large, refusal_of_sized⟩,
    leaves_host_withoutNested program words sink state⟩
  rintro before nestedWords nestedSink nested later rfl answers reached hpasses
  have hinstalled := hpasses.isSome rfl
  obtain ⟨arena, harena⟩ := Option.isSome_iff_exists.mp hinstalled
  refine ⟨fun entry => on_host_of_refused harena nestedWords nestedSink, ?_⟩
  have hnested := Program.on_run_cons_of_next later
    (Program.on_run_nested nestedWords nestedSink nested hinstalled)
  rw [Program.on_run_of_passes _ hpasses, Action.on_map, hnested, ← Action.on_map, ← comp_map]
  rfl

/-- Between a store and a load, a nested run of a size that is allowed finds an arena installed. -/
theorem nested_runs_change_nothing_between :
    (host (Program.run [.ret 2]) 8 {}).on ⟨some ⟨#[1, 14, 0, 0]⟩, "", #[.allocated 4]⟩ =
        some (.ok ⟨.error .alreadyInstalled, {}, none⟩,
          ⟨some ⟨#[1, 14, 0, 0]⟩, "", #[.allocated 4, .allocated 8]⟩) ∧
      (HostRun.mapEntered
          (Program.ownAnswers [.store 0 [1, 14], .host 8 {} [.ret 2], .load 1, .ret 1]) <$>
        host (Program.run [.store 0 [1, 14], .host 8 {} [.ret 2], .load 1, .ret 1]) 4 {}).leaves
          initial =
        (host (Program.run [.store 0 [1, 14], .load 1, .ret 1]) 4 {}).leaves initial := by
  obtain ⟨hnested, -, hsame⟩ := nested_runs_change_nothing
    [.store 0 [1, 14], .host 8 {} [.ret 2], .load 1, .ret 1] 4 {} initial
  obtain ⟨hrefused, -⟩ := hnested [.store 0 [1, 14]] 8 {} [.ret 2] [.load 1, .ret 1] rfl [.done] _
    (.cons rfl (.nil _))
  exact ⟨hrefused _, hsame⟩

end Execution

end TaggedWords
