import TaggedWords.Execution.Exit
import TaggedWords.Execution.Session
import TaggedWords.Proofs.Execution.Actions
import TaggedWords.Proofs.Output.Writing

/-!
# The arena of a session

What a call of a session does depends on the arena that is installed, and on nothing else.  That is
the one of the last `install` that went well, unless the session let go of it since; and the session
holds an arena exactly if one is installed.

* `on_print_of_printed`      printing over the installed arena writes what `Arena.print` writes;
* `Call.Does`, `Call.Fails`, `Call.Hangs`   what a call does, rule by rule;
* `Call.on_perform_of_does`, `Call.on_perform_of_fails`, `Call.on_perform_of_hangs`   calls follow
                             the rules;
* `Session.slotAfter`        what is installed after a call, read off its reply;
* `Session.LastInstalled`    the arena of the last `install` that went well and is still held;
* `Session.on_run_of_ok`     what is installed is read off the replies;
* `Session.on_run_append`    a session goes on where it was;
* `session_follows_slot`     what a session holds, and what its next call does.
-/

namespace TaggedWords

/-! ## printing -/

theorem Execution.on_print_of_printed {state : Execution} {arena : Arena}
    (h : state.installed = some arena) (w : Word) :
    (Execution.print w).on state = (arena.print w {}).map fun outcome =>
      (outcome.1, { state with stdout := state.stdout ++ outcome.2.text }) := by
  rw [on_print_of_some h, Arena.print, Option.map_map]
  refine congrArg (fun f => (arena.render w).run.map f) (funext fun outcome => ?_)
  cases outcome with
  | error e =>
    show (_, state) = (_, { state with stdout := state.stdout ++ ({} : Sink).text })
    rw [Sink.text_empty, String.append_empty]
  | ok text =>
    simp only [printed, Function.comp_apply, Sink.write_of_fits (Sink.fits_empty _),
      Sink.text_adding_empty]

/-! ## what a call does -/

/-- What a call does: its reply, the arena that is installed then, and what is printed. -/
inductive Call.Does (slot : Option Arena) : Call → Reply → Option Arena → String → Prop where
  | install {arena : Arena} (free : slot = none) :
    Does slot (.install arena) (.install (.ok ())) (some arena) ""
  | refused {arena held : Arena} (taken : slot = some held) :
    Does slot (.install arena) (.install (.error .alreadyInstalled)) slot ""
  | uninstall : Does slot .uninstall .done none ""
  | installed : Does slot .installed (.bool slot.isSome) slot ""
  | equal {arena : Arena} {a b r : Word} (found : slot = some arena)
    (answers : (arena.equalWord a b).run = some (.ok r)) : Does slot (.equal a b) (.word r) slot ""
  | print {arena : Arena} {w r : Word} {sink : Sink} (found : slot = some arena)
    (answers : arena.print w {} = some (.ok r, sink)) :
    Does slot (.print w) (.word r) slot sink.text

inductive Call.Fails (slot : Option Arena) : Call → Failure → Prop where
  | equalWithout {a b : Word} (free : slot = none) : Fails slot (.equal a b) .notInstalled
  | printWithout {w : Word} (free : slot = none) : Fails slot (.print w) .notInstalled
  | equal {arena : Arena} {a b : Word} {e : ArenaError} (found : slot = some arena)
    (fails : (arena.equalWord a b).run = some (.error e)) : Fails slot (.equal a b) (.arena e)
  | print {arena : Arena} {w : Word} {e : ArenaError} (found : slot = some arena)
    (fails : arena.print w {} = some (.error (.arena e), {})) : Fails slot (.print w) (.arena e)
  | error {code : Int} : Fails slot (.error code) (.fault (Fault.ofCode code))

inductive Call.Hangs (slot : Option Arena) : Call → Prop where
  | equal {arena : Arena} {a b : Word} (found : slot = some arena)
    (endless : (arena.equalWord a b).run = none) : Hangs slot (.equal a b)
  | print {arena : Arena} {w : Word} (found : slot = some arena)
    (endless : arena.print w {} = none) : Hangs slot (.print w)

namespace Call

open Execution

variable {slot slot' : Option Arena} {call : Call} {reply : Reply} {output : String} {e : Failure}
  {stdout : String} {events : Array Event}

theorem on_perform_equal {arena : Arena} (found : slot = some arena) (held : Bool) (a b : Word) :
    (perform held (.equal a b)).on ⟨slot, stdout, events⟩ =
      (arena.equalWord a b).run.map fun outcome =>
        ((outcome.mapError Failure.arena).map fun r => (.word r, held),
          ⟨slot, stdout, events⟩) := by
  rw [perform, on_bind, on_equal_of_some found]
  rcases (arena.equalWord a b).run with _ | e | r <;> rfl

theorem on_perform_print {arena : Arena} (found : slot = some arena) (held : Bool) (w : Word) :
    (perform held (.print w)).on ⟨slot, stdout, events⟩ =
      (arena.print w {}).map fun outcome =>
        (outcome.1.map fun r => (.word r, held),
          ⟨slot, stdout ++ outcome.2.text, events⟩) := by
  rw [perform, on_bind, on_print_of_printed found]
  rcases arena.print w {} with _ | ⟨e | r, sink⟩ <;> rfl

theorem on_perform_of_does (h : call.Does slot reply slot' output) :
    (call.perform slot.isSome).on ⟨slot, stdout, events⟩ =
      some (.ok (reply, slot'.isSome), ⟨slot', stdout ++ output, events⟩) := by
  cases h with
  | @install arena free =>
    subst free
    rw [perform, on_bind_of_ok (a := .ok ()) (on_install arena _), String.append_empty]
    rfl
  | @refused arena held taken =>
    subst taken
    rw [perform, on_bind_of_ok (a := .error .alreadyInstalled) (on_install arena _),
      String.append_empty]
    rfl
  | uninstall =>
    rw [String.append_empty]
    cases slot <;> rfl
  | installed =>
    rw [perform, on_bind_of_ok (on_isInstalled _), String.append_empty]
    rfl
  | equal found answers =>
    rw [on_perform_equal found, answers, String.append_empty]
    rfl
  | print found answers =>
    rw [on_perform_print found, answers]
    rfl

theorem on_perform_of_fails (h : call.Fails slot e) :
    (call.perform slot.isSome).on ⟨slot, stdout, events⟩ =
      some (.error e, ⟨slot, stdout, events⟩) := by
  cases h with
  | equalWithout free => exact on_bind_of_error (on_equal_of_none free _ _) _
  | printWithout free => exact on_bind_of_error (on_print_of_none free _) _
  | equal found fails =>
    rw [on_perform_equal found, fails]
    rfl
  | print found fails =>
    rw [on_perform_print found, fails, Option.map_some, Sink.text_empty, String.append_empty]
    rfl
  | error => rfl

theorem on_perform_of_hangs (h : call.Hangs slot) :
    (call.perform slot.isSome).on ⟨slot, stdout, events⟩ = none := by
  cases h with
  | equal found endless => rw [on_perform_equal found, endless, Option.map_none]
  | print found endless => rw [on_perform_print found, endless, Option.map_none]

theorem does_or_fails_or_hangs (slot : Option Arena) (call : Call) :
    (∃ reply slot' output, call.Does slot reply slot' output) ∨ (∃ e, call.Fails slot e) ∨
      call.Hangs slot := by
  cases call with
  | install arena =>
    cases slot with
    | none => exact .inl ⟨_, _, _, .install rfl⟩
    | some held => exact .inl ⟨_, _, _, .refused rfl⟩
  | uninstall => exact .inl ⟨_, _, _, .uninstall⟩
  | installed => exact .inl ⟨_, _, _, .installed⟩
  | error code => exact .inr (.inl ⟨_, .error⟩)
  | equal a b =>
    cases slot with
    | none => exact .inr (.inl ⟨_, .equalWithout rfl⟩)
    | some arena =>
      cases hrun : (arena.equalWord a b).run with
      | none => exact .inr (.inr (.equal rfl hrun))
      | some outcome =>
        cases outcome with
        | error e => exact .inr (.inl ⟨_, .equal rfl hrun⟩)
        | ok r => exact .inl ⟨_, _, _, .equal rfl hrun⟩
  | print w =>
    cases slot with
    | none => exact .inr (.inl ⟨_, .printWithout rfl⟩)
    | some arena =>
      cases hrun : (arena.render w).run with
      | none =>
        have hprint : arena.print w {} = none := by rw [Arena.print, hrun, Option.map_none]
        exact .inr (.inr (.print rfl hprint))
      | some outcome =>
        have hends := Arena.render_run_eq_some_iff.mp hrun
        cases outcome with
        | error e => exact .inr (.inl ⟨_, .print rfl (Arena.print_of_error hends {})⟩)
        | ok text =>
          exact .inl ⟨_, _, _, .print rfl (Arena.print_of_fits hends (Sink.fits_empty _))⟩

theorem exists_does_of_on_perform {held : Bool} {state : Execution}
    (h : (call.perform slot.isSome).on ⟨slot, stdout, events⟩ = some (.ok (reply, held), state)) :
    ∃ slot' output, call.Does slot reply slot' output ∧ held = slot'.isSome ∧
      state = ⟨slot', stdout ++ output, events⟩ := by
  rcases does_or_fails_or_hangs slot call with ⟨reply, slot', output, hdoes⟩ | ⟨e, hfails⟩ | hhangs
  · rw [on_perform_of_does hdoes] at h
    cases h
    exact ⟨slot', output, hdoes, rfl, rfl⟩
  · rw [on_perform_of_fails hfails] at h
    cases h
  · rw [on_perform_of_hangs hhangs] at h
    contradiction

end Call

/-! ## what is installed -/

namespace Session

variable {slot : Option Arena} {arena : Arena} {entry : Call × Reply} {log : List (Call × Reply)}

/-- What is installed after a call, read off its reply. -/
def slotAfter (slot : Option Arena) : Call × Reply → Option Arena
  | (.install arena, .install (.ok ())) => some arena
  | (.uninstall, _) => none
  | _ => slot

def Keeps (entry : Call × Reply) : Prop :=
  entry.1 ≠ .uninstall ∧ ∀ arena, entry ≠ (.install arena, .install (.ok ()))

/-- The arena of the last `install` that went well, which no `uninstall` follows. -/
def LastInstalled (log : List (Call × Reply)) (arena : Arena) : Prop :=
  ∃ before after, log = before ++ (.install arena, .install (.ok ())) :: after ∧
    ∀ entry ∈ after, Keeps entry

theorem slotAfter_eq_some_iff : slotAfter slot entry = some arena ↔
    entry = (.install arena, .install (.ok ())) ∨ Keeps entry ∧ slot = some arena := by
  unfold slotAfter
  split
  next installed =>
    have hnot : ¬ Keeps (.install installed, .install (.ok ())) := fun h => h.2 installed rfl
    simp only [hnot, false_and, or_false, Option.some.injEq, Prod.mk.injEq, Call.install.injEq,
      and_true]
  next reply =>
    have hnot : ¬ Keeps (.uninstall, reply) := fun h => h.1 rfl
    simp only [hnot, false_and, or_false, Prod.mk.injEq, reduceCtorEq]
  next hinstall huninstall =>
    have hnot : ∀ arena, entry ≠ (.install arena, .install (.ok ())) := hinstall
    have hkeeps : Keeps entry := ⟨fun h => huninstall entry.2 (Prod.ext h rfl), hnot⟩
    simp only [hnot, hkeeps, true_and, false_or]

theorem lastInstalled_cons_iff : LastInstalled (entry :: log) arena ↔
    entry = (.install arena, .install (.ok ())) ∧ (∀ entry ∈ log, Keeps entry) ∨
      LastInstalled log arena := by
  constructor
  · rintro ⟨before, after, hlog, hkeeps⟩
    cases before with
    | nil =>
      obtain ⟨rfl, rfl⟩ := List.cons.inj hlog
      exact .inl ⟨rfl, hkeeps⟩
    | cons first before =>
      obtain ⟨rfl, rfl⟩ := List.cons.inj hlog
      exact .inr ⟨before, after, rfl, hkeeps⟩
  · rintro (⟨rfl, hkeeps⟩ | ⟨before, after, rfl, hkeeps⟩)
    · exact ⟨[], log, rfl, hkeeps⟩
    · exact ⟨entry :: before, after, rfl, hkeeps⟩

theorem foldl_slotAfter_eq_some_iff : log.foldl slotAfter slot = some arena ↔
    LastInstalled log arena ∨ slot = some arena ∧ ∀ entry ∈ log, Keeps entry := by
  induction log generalizing slot with
  | nil =>
    have hnone : ¬ LastInstalled [] arena := by
      rintro ⟨before, after, hlog, -⟩
      exact List.append_ne_nil_of_right_ne_nil before (List.cons_ne_nil _ _) hlog.symm
    simp only [List.foldl_nil, hnone, false_or, List.not_mem_nil, false_implies, implies_true,
      and_true]
  | cons entry log ih =>
    rw [List.foldl_cons, ih, lastInstalled_cons_iff, slotAfter_eq_some_iff, List.forall_mem_cons]
    tauto

theorem foldl_slotAfter_none_iff : log.foldl slotAfter none = some arena ↔
    LastInstalled log arena := by
  rw [foldl_slotAfter_eq_some_iff]
  exact or_iff_left fun h => nomatch h.1

theorem slotAfter_of_does {slot' : Option Arena} {call : Call} {reply : Reply} {output : String}
    (h : call.Does slot reply slot' output) : slotAfter slot (call, reply) = slot' := by
  cases h <;> rfl

/-! ## sessions -/

variable {held holding : Bool} {calls : List Call} {replies : List Reply} {state state' : Execution}

theorem on_run_cons {call : Call} {reply : Reply} (rest : List Call)
    (h : (call.perform held).on state = some (.ok (reply, holding), state')) :
    (Session.run held (call :: rest)).on state =
      (Session.run holding rest >>= fun p => pure (reply :: p.1, p.2)).on state' := by
  rw [Session.run, Execution.on_bind_of_ok h]

/-- **What is installed is read off the replies**, and the session holds an arena exactly if one is
installed. -/
theorem on_run_of_ok {stdout : String} {events : Array Event}
    (h : (Session.run slot.isSome calls).on ⟨slot, stdout, events⟩ =
      some (.ok (replies, holding), state)) :
    replies.length = calls.length ∧ holding = state.installed.isSome ∧
      state.installed = (calls.zip replies).foldl slotAfter slot ∧ state.events = events := by
  -- by recursion on the calls: what is installed is what the calls before left there
  induction calls generalizing slot stdout replies with
  | nil =>
    cases h
    exact ⟨rfl, rfl, rfl, rfl⟩
  | cons call rest ih =>
    rw [Session.run] at h
    obtain ⟨⟨reply, held⟩, between, hcall, hrest⟩ := Execution.exists_of_on_bind_eq_ok h
    obtain ⟨slot', output, hdoes, rfl, rfl⟩ := Call.exists_does_of_on_perform hcall
    obtain ⟨⟨others, held'⟩, last, hothers, hlast⟩ := Execution.exists_of_on_bind_eq_ok hrest
    cases hlast
    obtain ⟨hlength, hholding, hinstalled, hevents⟩ := ih hothers
    refine ⟨congrArg Nat.succ hlength, hholding, ?_, hevents⟩
    rw [hinstalled, List.zip_cons_cons, List.foldl_cons, slotAfter_of_does hdoes]

theorem on_run_append (more : List Call)
    (h : (Session.run held calls).on state = some (.ok (replies, holding), state')) :
    (Session.run held (calls ++ more)).on state =
      (Session.run holding more >>= fun p => pure (replies ++ p.1, p.2)).on state' := by
  induction calls generalizing held state replies with
  | nil =>
    cases h
    exact congrArg (Action.on · _) (bind_pure _).symm
  | cons call rest ih =>
    rw [Session.run] at h
    obtain ⟨⟨reply, held'⟩, between, hcall, hrest⟩ := Execution.exists_of_on_bind_eq_ok h
    obtain ⟨⟨others, held''⟩, last, hothers, hlast⟩ := Execution.exists_of_on_bind_eq_ok hrest
    cases hlast
    rw [List.cons_append, on_run_cons _ hcall, Execution.on_bind, ih hothers]
    simp only [Execution.on_bind]
    rcases (Session.run holding more).on state' with _ | ⟨e | p, last⟩ <;> rfl

end Session

theorem Call.fails_without {call : Call}
    (h : (∃ a b, call = .equal a b) ∨ ∃ w, call = .print w) : call.Fails none .notInstalled := by
  rcases h with ⟨a, b, rfl⟩ | ⟨w, rfl⟩
  · exact .equalWithout rfl
  · exact .printWithout rfl

theorem Session.exit?_of_fails {slot : Option Arena} {stdout : String} {calls : List Call}
    {replies : List Reply} {call : Call} {e : Failure}
    (h : (Session.run false calls).on Execution.initial =
      some (.ok (replies, slot.isSome), ⟨slot, stdout, #[]⟩)) (hfails : call.Fails slot e)
    (rest : List Call) (filter : Filter) :
    Execution.exit? filter (Session.run false (calls ++ call :: rest)) =
      some ⟨shownStatus e.exitStatus, stdout, filter.lines [.terminating e] ++ e.report⟩ := by
  have hcall : (Session.run slot.isSome (call :: rest)).on ⟨slot, stdout, #[]⟩ =
      some (.error e, ⟨slot, stdout, #[]⟩) := by
    rw [Session.run]
    exact Execution.on_bind_of_error (Call.on_perform_of_fails hfails) _
  have hrun := (Session.on_run_append (call :: rest) h).trans
    (Execution.on_bind_of_error hcall _)
  show ((Session.run false (calls ++ call :: rest)).on Execution.initial).map _ = _
  rw [hrun]
  rfl

/-- **What a session holds, and what its next call does.**  Without an arena, comparing and printing
end the process, whatever the words are. -/
theorem session_follows_slot {calls : List Call} {replies : List Reply} {holding : Bool}
    {state : Execution}
    (h : (Session.run false calls).on Execution.initial = some (.ok (replies, holding), state)) :
    replies.length = calls.length ∧ holding = state.installed.isSome ∧
    (∀ arena, state.installed = some arena ↔
      Session.LastInstalled (calls.zip replies) arena) ∧
    (∀ call,
      (∃ reply slot output, call.Does state.installed reply slot output ∧
        (Session.run false (calls ++ [call])).on Execution.initial =
          some (.ok (replies ++ [reply], slot.isSome), ⟨slot, state.stdout ++ output, #[]⟩)) ∨
      (∃ e, call.Fails state.installed e ∧ ∀ rest filter,
        Execution.exit? filter (Session.run false (calls ++ call :: rest)) =
          some ⟨shownStatus e.exitStatus, state.stdout,
            filter.lines [.terminating e] ++ e.report⟩) ∨
      (call.Hangs state.installed ∧ ∀ rest,
        (Session.run false (calls ++ call :: rest)).on Execution.initial = none)) ∧
    (state.installed = none → ∀ call, ((∃ a b, call = .equal a b) ∨ ∃ w, call = .print w) →
      ∀ rest filter, Execution.exit? filter (Session.run false (calls ++ call :: rest)) =
        some ⟨70, state.stdout, filter.lines [.terminating .notInstalled] ++
          "Error: runtime called before an arena was installed\n"⟩) := by
  obtain ⟨slot, stdout, events⟩ := state
  have hfree : (Session.run (none : Option Arena).isSome calls).on ⟨none, "", #[]⟩ = _ := h
  obtain ⟨hlength, rfl, hinstalled, rfl⟩ := Session.on_run_of_ok hfree
  refine ⟨hlength, rfl, fun arena => ?_, fun call => ?_, fun hnone call hcall rest filter => ?_⟩
  · rw [hinstalled]
    exact Session.foldl_slotAfter_none_iff
  · rcases Call.does_or_fails_or_hangs slot call with
      ⟨reply, slot', output, hdoes⟩ | ⟨e, hfails⟩ | hhangs
    · refine .inl ⟨reply, slot', output, hdoes, (Session.on_run_append [call] h).trans ?_⟩
      rw [Execution.on_bind, Session.on_run_cons [] (Call.on_perform_of_does hdoes)]
      rfl
    · exact .inr (.inl ⟨e, hfails, Session.exit?_of_fails h hfails⟩)
    · refine .inr (.inr ⟨hhangs, fun rest => (Session.on_run_append (call :: rest) h).trans ?_⟩)
      refine Execution.on_bind_of_none ?_ _
      rw [Session.run]
      exact Execution.on_bind_of_none (Call.on_perform_of_hangs hhangs) _
  · cases hnone
    exact Session.exit?_of_fails h (Call.fails_without hcall) rest filter

/-- The second arena is refused, and the first stays until it is let go of. -/
theorem session_follows_slot_two_arenas :
    (Session.run false [.install ⟨#[1, 14]⟩, .install ⟨#[1, 2]⟩]).on Execution.initial =
        some (.ok ([.install (.ok ()), .install (.error .alreadyInstalled)], true),
          ⟨some ⟨#[1, 14]⟩, "", #[]⟩) ∧
      Session.LastInstalled [(.install ⟨#[1, 14]⟩, .install (.ok ())),
        (.install ⟨#[1, 2]⟩, .install (.error .alreadyInstalled))] ⟨#[1, 14]⟩ ∧
      ∀ filter, Execution.exit? filter
          (Session.run false ([.install ⟨#[1, 14]⟩, .uninstall] ++ [.equal 2 2])) =
        some ⟨70, "", filter.lines [.terminating .notInstalled] ++
          "Error: runtime called before an arena was installed\n"⟩ := by
  have htwo : (Session.run false [.install ⟨#[1, 14]⟩, .install ⟨#[1, 2]⟩]).on Execution.initial =
      some (.ok ([.install (.ok ()), .install (.error .alreadyInstalled)], true),
        ⟨some ⟨#[1, 14]⟩, "", #[]⟩) := rfl
  have hleft : (Session.run false [.install ⟨#[1, 14]⟩, .uninstall]).on Execution.initial =
      some (.ok ([.install (.ok ()), .done], false), ⟨none, "", #[]⟩) := rfl
  obtain ⟨-, -, hlast, -⟩ := session_follows_slot htwo
  obtain ⟨-, -, -, -, hwithout⟩ := session_follows_slot hleft
  exact ⟨htwo, (hlast _).mp rfl, hwithout rfl (.equal 2 2) (.inl ⟨2, 2, rfl⟩) []⟩

end TaggedWords
