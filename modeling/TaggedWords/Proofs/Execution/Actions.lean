import TaggedWords.Execution.Host

/-!
# What actions do to an execution

An action leaves an execution in a new state, with an answer or with the failure that ends it; or it
never ends.  Each action of `Execution` is told here by one equation, for every state, so that what
is proved of programs and sessions does not look into the monad again.

* `Action.on`                what an action does to an execution;
* `on_bind_of_ok`, `on_bind_of_error`   one action after another;
* `on_install`               installing an arena, or failing to;
* `on_equal_of_some`, `on_print_of_some`   the two calls over an arena;
* `on_equal_of_none`, `on_print_of_none`   the same without one;
* `on_host_of_error`, `on_host_of_installed`, `on_host_of_free`   hosting a program, by what the
                             checks before it find.
-/

namespace TaggedWords

/-- What an action does to an execution: none if it never ends. -/
def Action.on {α : Type} (action : Action α) (state : Execution) :
    Option (Except Failure α × Execution) := action.run state

namespace Execution

variable {α β : Type} {state state' : Execution}

/-! ## one action after another -/

theorem on_pure (a : α) (state : Execution) : (pure a : Action α).on state = some (.ok a, state) :=
  rfl

theorem on_bind (action : Action α) (next : α → Action β) (state : Execution) :
    (action >>= next).on state =
      match action.on state with
      | none => none
      | some (.error e, state') => some (.error e, state')
      | some (.ok a, state') => (next a).on state' := by
  show (action.on state).bind _ = _
  rcases action.on state with _ | ⟨e | a, state'⟩ <;> rfl

theorem on_bind_of_ok {action : Action α} {a : α} (h : action.on state = some (.ok a, state'))
    (next : α → Action β) : (action >>= next).on state = (next a).on state' := by
  rw [on_bind, h]

theorem on_bind_of_error {action : Action α} {e : Failure}
    (h : action.on state = some (.error e, state')) (next : α → Action β) :
    (action >>= next).on state = some (.error e, state') := by
  rw [on_bind, h]

theorem on_bind_of_none {action : Action α} (h : action.on state = none) (next : α → Action β) :
    (action >>= next).on state = none := by
  rw [on_bind, h]

theorem exists_of_on_bind_eq_ok {action : Action α} {next : α → Action β} {b : β}
    (h : (action >>= next).on state = some (.ok b, state')) :
    ∃ a between, action.on state = some (.ok a, between) ∧
      (next a).on between = some (.ok b, state') := by
  rw [on_bind] at h
  rcases haction : action.on state with _ | ⟨e | a, between⟩ <;> rw [haction] at h
  · contradiction
  · cases h
  · exact ⟨a, between, rfl, h⟩

/-! ## the installed arena -/

theorem on_get (state : Execution) : (get : Action Execution).on state = some (.ok state, state) :=
  rfl

theorem on_waitFor (outcome : Option α) (state : Execution) :
    (waitFor outcome).on state = outcome.map fun a => (.ok a, state) := rfl

theorem on_note (event : Event) (state : Execution) :
    (note event).on state = some (.ok (), { state with events := state.events.push event }) := rfl

theorem on_emit (text : String) (state : Execution) :
    (emit text).on state = some (.ok (), { state with stdout := state.stdout ++ text }) := rfl

theorem on_isInstalled (state : Execution) :
    isInstalled.on state = some (.ok state.installed.isSome, state) := rfl

theorem on_error (code : Int) (state : Execution) :
    (error code : Action α).on state = some (.error (.fault (Fault.ofCode code)), state) := rfl

theorem on_install (arena : Arena) (state : Execution) :
    (install arena).on state =
      if state.installed.isSome then some (.ok (.error .alreadyInstalled), state)
      else some (.ok (.ok ()), { state with installed := some arena }) := by
  rw [install, on_bind_of_ok (on_isInstalled state)]
  cases state.installed.isSome <;> rfl

theorem on_arena_of_some {arena : Arena} (h : state.installed = some arena) :
    Execution.arena.on state = some (.ok arena, state) := by
  rw [Execution.arena, on_bind_of_ok (on_get state), h]
  rfl

theorem on_arena_of_none (h : state.installed = none) :
    Execution.arena.on state = some (.error .notInstalled, state) := by
  rw [Execution.arena, on_bind_of_ok (on_get state), h]
  rfl

theorem on_store_of_some {arena : Arena} (h : state.installed = some arena) (index : Nat)
    (words : List Word) :
    (store index words).on state =
      some (.ok (), { state with installed := some (arena.write index words) }) := by
  show some (_, { state with installed := state.installed.map fun arena => _ }) = _
  rw [h]
  rfl

theorem on_load_of_some {arena : Arena} (h : state.installed = some arena) (index : Nat) :
    (load index).on state = some (.ok (arena.read index), state) := by
  rw [load, on_bind_of_ok (on_arena_of_some h)]
  rfl

/-! ## the calls of a running program -/

/-- A walk changes nothing.  An arena error ends the execution. -/
theorem on_follow (walk : Walk α) (state : Execution) :
    (follow walk).on state =
      walk.run.map fun outcome => (outcome.mapError Failure.arena, state) := by
  rw [follow, on_bind, on_waitFor]
  rcases walk.run with _ | e | a <;> rfl

theorem on_equal_of_some {arena : Arena} (h : state.installed = some arena) (a b : Word) :
    (equal a b).on state =
      (arena.equalWord a b).run.map fun outcome => (outcome.mapError Failure.arena, state) := by
  rw [equal, on_bind_of_ok (on_arena_of_some h), on_follow]

theorem on_equal_of_none (h : state.installed = none) (a b : Word) :
    (equal a b).on state = some (.error .notInstalled, state) := by
  rw [equal, on_bind_of_error (on_arena_of_none h)]

def printed (w : Word) (state : Execution) :
    Except ArenaError String → Except Failure Word × Execution
  | .ok text => (.ok w, { state with stdout := state.stdout ++ lineOf text })
  | .error e => (.error (.arena e), state)

theorem on_print_of_some {arena : Arena} (h : state.installed = some arena) (w : Word) :
    (print w).on state = (arena.render w).run.map (printed w state) := by
  rw [print, on_bind_of_ok (on_arena_of_some h), on_bind, on_follow]
  rcases (arena.render w).run with _ | e | text <;> rfl

theorem on_print_of_none (h : state.installed = none) (w : Word) :
    (print w).on state = some (.error .notInstalled, state) := by
  rw [print, on_bind_of_error (on_arena_of_none h)]

/-! ## hosting -/

variable {entry : Action (Word × α)} {words : Nat}

/-- What is left to do once the arena is installed. -/
def enter (entry : Action (Word × α)) (sink : Sink) : Action (HostRun α) := do
  let (w, answers) ← entry
  note (.returned w)
  let (result, sink) ← printTo sink w
  uninstall
  return ⟨flushed result sink, sink, some answers⟩

theorem on_host_of_error {e : ArenaError} (h : Arena.checkSize words = .error e) (sink : Sink)
    (state : Execution) :
    (host entry words sink).on state = some (.ok ⟨.error (.arena e), sink, none⟩, state) := by
  rw [host, h]
  rfl

theorem on_host_of_installed (h : Arena.checkSize words = .ok ())
    (hinstalled : state.installed.isSome = true) (sink : Sink) :
    (host entry words sink).on state =
      some (.ok ⟨.error .alreadyInstalled, sink, none⟩,
        { state with events := state.events.push (.allocated words) }) := by
  rw [host, h]
  show Action.on (note (.allocated words) >>= fun _ => _) state = _
  rw [on_bind_of_ok (on_note _ state), on_bind, on_install, if_pos hinstalled]
  rfl

theorem on_host_of_free (h : Arena.checkSize words = .ok ()) (hfree : state.installed = none)
    (sink : Sink) :
    (host entry words sink).on state =
      (enter entry sink).on
        ⟨some (.zeros words), state.stdout, state.events.push (.allocated words)⟩ := by
  have hnot : ¬ state.installed.isSome = true := by
    rw [hfree]
    exact Bool.false_ne_true
  rw [host, h]
  show Action.on (note (.allocated words) >>= fun _ => _) state = _
  rw [on_bind_of_ok (on_note _ state), on_bind, on_install, if_neg hnot]
  rfl

theorem on_printTo_of_some {arena : Arena} (h : state.installed = some arena) (sink : Sink)
    (w : Word) :
    (printTo sink w).on state = (arena.print w sink).map fun outcome => (.ok outcome, state) := by
  rw [printTo, on_bind_of_ok (on_get state), h]
  exact on_waitFor _ state

end Execution

end TaggedWords
