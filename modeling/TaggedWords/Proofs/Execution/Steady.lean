import TaggedWords.Proofs.Execution.Running

/-!
# What does not depend on the log

The events that an execution noted are for its log alone.  What a step or a program leaves behind
over an installed arena is settled by that arena and by the standard output; the events noted before
have no part in it, and an arena is installed afterwards.

* `Execution.unnoted`        an execution without the events that it noted;
* `Action.leaves`            what an action leaves behind, but for events;
* `Action.Steady`            it is settled by the installed arena and the standard output;
* `Steady.pure`, `Steady.bind`   actions that are composed of steady ones are steady;
* `Steady.leaves_eq`, `Steady.isSome_of_on`   what steady actions have in common;
* `Step.steady`, `Program.steady`   steps and programs are steady.
-/

namespace TaggedWords

def Execution.unnoted (state : Execution) : Execution := { state with events := #[] }

namespace Action

variable {α β : Type} {action : Action α} {state state' : Execution}

/-- What an action leaves behind, but for the events that it noted. -/
def leaves (action : Action α) (state : Execution) : Option (Except Failure α × Execution) :=
  (action.on state).map fun outcome => (outcome.1, outcome.2.unnoted)

theorem leaves_of_on {result : Except Failure α} (h : action.on state = some (result, state')) :
    action.leaves state = some (result, state'.unnoted) := by
  rw [leaves, h, Option.map_some]

theorem exists_on_of_leaves {result : Except Failure α} {left : Execution}
    (h : action.leaves state = some (result, left)) :
    ∃ state', action.on state = some (result, state') ∧ state'.unnoted = left := by
  obtain ⟨⟨result', state'⟩, hon, heq⟩ := Option.map_eq_some_iff.mp h
  cases heq
  exact ⟨state', hon, rfl⟩

theorem on_eq_none_of_leaves (h : action.leaves state = none) : action.on state = none :=
  Option.map_eq_none_iff.mp h

theorem on_map (f : α → β) (action : Action α) (state : Execution) :
    (f <$> action).on state = (action.on state).map fun outcome => (outcome.1.map f, outcome.2) := by
  rw [map_eq_pure_bind, Execution.on_bind]
  rcases action.on state with _ | ⟨e | a, state'⟩ <;> rfl

theorem leaves_map (f : α → β) (action : Action α) (state : Execution) :
    (f <$> action).leaves state =
      (action.leaves state).map fun outcome => (outcome.1.map f, outcome.2) := by
  rw [leaves, on_map, leaves, Option.map_map, Option.map_map]
  rfl

theorem leaves_bind_congr {next next' : α → Action β}
    (h : ∀ a state', action.on state = some (.ok a, state') →
      (next a).leaves state' = (next' a).leaves state') :
    (action >>= next).leaves state = (action >>= next').leaves state := by
  rw [leaves, leaves, Execution.on_bind, Execution.on_bind]
  rcases hon : action.on state with _ | ⟨e | a, state'⟩
  · rfl
  · rfl
  · exact h a state' hon

/-- Over an installed arena, what is left behind is settled by the arena and the standard output. -/
def Steady (action : Action α) : Prop :=
  ∀ arena stdout, ∃ outcome : Option (Except Failure α × Arena × String), ∀ events,
    action.leaves ⟨some arena, stdout, events⟩ =
      outcome.map fun left => (left.1, ⟨some left.2.1, left.2.2, #[]⟩)

namespace Steady

theorem leaves_eq (h : Steady action) (hinstalled : state.installed.isSome = true)
    (hsame : state.unnoted = state'.unnoted) : action.leaves state = action.leaves state' := by
  obtain ⟨installed, stdout, events⟩ := state
  obtain ⟨installed', stdout', events'⟩ := state'
  cases hsame
  obtain ⟨arena, rfl⟩ := Option.isSome_iff_exists.mp hinstalled
  obtain ⟨outcome, houtcome⟩ := h arena stdout
  rw [houtcome, houtcome]

theorem isSome_of_on (h : Steady action) (hinstalled : state.installed.isSome = true)
    {result : Except Failure α} (hon : action.on state = some (result, state')) :
    state'.installed.isSome = true := by
  obtain ⟨installed, stdout, events⟩ := state
  obtain ⟨arena, rfl⟩ := Option.isSome_iff_exists.mp hinstalled
  obtain ⟨outcome, houtcome⟩ := h arena stdout
  have hleft := (leaves_of_on hon).symm.trans (houtcome events)
  obtain ⟨⟨result', arena', stdout'⟩, -, heq⟩ := Option.map_eq_some_iff.mp hleft.symm
  have hinstalled' : some arena' = state'.installed := congrArg (·.2.installed) heq
  rw [← hinstalled']
  rfl

/-- An action is steady if what it does is told by one equation for each arena. -/
theorem of_on (h : ∀ arena stdout, ∃ outcome : Option (Except Failure α × Arena × String), ∀ events,
    action.on ⟨some arena, stdout, events⟩ =
      outcome.map fun left => (left.1, ⟨some left.2.1, left.2.2, events⟩)) : Steady action := by
  intro arena stdout
  obtain ⟨outcome, houtcome⟩ := h arena stdout
  refine ⟨outcome, fun events => ?_⟩
  rw [leaves, houtcome, Option.map_map]
  rfl

theorem pure (a : α) : Steady (pure a : Action α) :=
  of_on fun arena stdout => ⟨some (.ok a, arena, stdout), fun _ => rfl⟩

theorem bind {next : α → Action β} (h : Steady action) (hnext : ∀ a, Steady (next a)) :
    Steady (action >>= next) := by
  intro arena stdout
  obtain ⟨outcome, houtcome⟩ := h arena stdout
  match outcome, houtcome with
  | none, houtcome =>
    refine ⟨none, fun events => ?_⟩
    rw [leaves, Execution.on_bind_of_none (on_eq_none_of_leaves (houtcome events))]
    rfl
  | some (.error e, arena', stdout'), houtcome =>
    refine ⟨some (.error e, arena', stdout'), fun events => ?_⟩
    obtain ⟨state', hon, hleft⟩ := exists_on_of_leaves (houtcome events)
    rw [leaves_of_on (Execution.on_bind_of_error hon next), hleft]
    rfl
  | some (.ok a, arena', stdout'), houtcome =>
    obtain ⟨outcome', houtcome'⟩ := hnext a arena' stdout'
    refine ⟨outcome', fun events => ?_⟩
    obtain ⟨⟨installed, left, events'⟩, hon, hleft⟩ := exists_on_of_leaves (houtcome events)
    cases hleft
    rw [leaves, Execution.on_bind_of_ok hon]
    exact houtcome' events'

end Steady

end Action

/-! ## steps and programs -/

namespace Execution

variable {α : Type}

theorem steady_arena : Action.Steady Execution.arena :=
  .of_on fun arena stdout => ⟨some (.ok arena, arena, stdout), fun _ => rfl⟩

theorem steady_isInstalled : Action.Steady isInstalled :=
  .of_on fun arena stdout => ⟨some (.ok true, arena, stdout), fun _ => rfl⟩

theorem steady_emit (text : String) : Action.Steady (emit text) :=
  .of_on fun arena stdout => ⟨some (.ok (), arena, stdout ++ text), fun _ => rfl⟩

theorem steady_store (index : Nat) (words : List Word) : Action.Steady (store index words) :=
  .of_on fun arena stdout => ⟨some (.ok (), arena.write index words, stdout), fun _ => rfl⟩

theorem steady_follow (walk : Walk α) : Action.Steady (follow walk) := by
  refine .of_on fun arena stdout =>
    ⟨walk.run.map fun outcome => (outcome.mapError Failure.arena, arena, stdout), fun events => ?_⟩
  rw [on_follow, Option.map_map]
  rfl

theorem steady_error (code : Int) : Action.Steady (error code : Action α) :=
  .of_on fun arena stdout =>
    ⟨some (.error (.fault (Fault.ofCode code)), arena, stdout), fun _ => rfl⟩

theorem steady_load (index : Nat) : Action.Steady (load index) :=
  steady_arena.bind fun _ => .pure _

theorem steady_equal (a b : Word) : Action.Steady (Execution.equal a b) :=
  steady_arena.bind fun _ => steady_follow _

theorem steady_print (w : Word) : Action.Steady (print w) :=
  steady_arena.bind fun _ => (steady_follow _).bind fun _ => (steady_emit _).bind fun _ => .pure w

theorem steady_storeAnswer (dest : Option Nat) (w : Word) : Action.Steady (storeAnswer dest w) := by
  cases dest with
  | none => exact .pure _
  | some index => exact (steady_store index [w]).bind fun _ => .pure _

theorem steady_host (entry : Action (Word × α)) (words : Nat) (sink : Sink) :
    Action.Steady (host entry words sink) := by
  refine fun arena stdout =>
    ⟨some (.ok ⟨.error (refusal words), sink, none⟩, arena, stdout), fun events => ?_⟩
  rw [Action.leaves_of_on (on_host_of_refused rfl words sink)]
  rfl

end Execution

open Execution in
theorem Step.steady (step : Step) : Action.Steady step.run := by
  cases step with
  | store index words => exact (steady_store index words).bind fun _ => .pure _
  | load index => exact (steady_load index).bind fun _ => .pure _
  | installed => exact steady_isInstalled.bind fun _ => .pure _
  | equal a b dest => exact (steady_equal a b).bind fun _ => steady_storeAnswer dest _
  | print w dest => exact (steady_print w).bind fun _ => steady_storeAnswer dest _
  | printAt index => exact (steady_load index).bind fun _ => (steady_print _).bind fun _ => .pure _
  | error code => exact steady_error code
  | host words sink program => exact (steady_host _ words sink).bind fun _ => .pure _
  | ret w => exact .pure _
  | retAt index => exact (steady_load index).bind fun _ => .pure _

theorem Program.steady (program : List Step) : Action.Steady (Program.run program) := by
  induction program with
  | nil => exact .pure _
  | cons step rest ih =>
    rw [Program.run]
    refine step.steady.bind fun progress => ?_
    cases progress with
    | leave w => exact .pure _
    | next answer => exact ih.bind fun _ => .pure _

end TaggedWords
