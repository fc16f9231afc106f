import TaggedWords.Execution.Program
import TaggedWords.Proofs.Walk.EqualLoop
import TaggedWords.Proofs.Walk.RenderLoop

/-!
# The course of a program

What a step of a program does is told by the arena that it finds, and by nothing else: it goes on
with an answer, leaves with a word, or fails.  Steps are taken in order over the arena as it is at
that moment, up to the first one that leaves or fails.

The rules below follow the walks of the calls without a bound.  A program has a course by them as
soon as no step that it comes to accesses a word outside the arena or begins a walk without an end,
and it has no other course.

* `Effect`, `Step.Does`        what a step does over an arena, rule by rule;
* `Course`, `Program.Takes`    what a program does from start to end;
* `Takes.unique`               a program has at most one course;
* `Step.Proper`, `Program.Orderly`   accesses are in range, and walks end;
* `Orderly.exists_course`      an orderly program has a course;
* `Takes.exists_split_of_failed`   a course that fails does so at one step.
-/

namespace TaggedWords

def Arena.writeAnswer (arena : Arena) (dest : Option Nat) (w : Word) : Arena :=
  match dest with
  | some index => arena.write index [w]
  | none => arena

def Arena.InRange (arena : Arena) (dest : Option Nat) : Prop := ∀ index ∈ dest, index < arena.size

/-- Why a program cannot be hosted where an arena is installed. -/
def Execution.refusal (words : Nat) : Failure :=
  match Arena.checkSize words with
  | .error e => .arena e
  | .ok () => .alreadyInstalled

def Execution.refusalEvents (words : Nat) : List Event :=
  match Arena.checkSize words with
  | .error _ => []
  | .ok () => [.allocated words]

/-! ## what a step does -/

inductive Effect where
  /-- It goes on: over this arena, with what it wrote to standard output, noted, and told. -/
  | next (arena : Arena) (output : String) (events : List Event) (answer : Answer)
  | leave (w : Word)
  | fail (e : Failure)

inductive Step.Does (arena : Arena) : Step → Effect → Prop where
  | store {index : Nat} {words : List Word} (range : ∀ i < words.length, index + i < arena.size) :
    Does arena (.store index words) (.next (arena.write index words) "" [] .done)
  | load {index : Nat} {w : Word} (found : arena.words[index]? = some w) :
    Does arena (.load index) (.next arena "" [] (.word w))
  | installed : Does arena .installed (.next arena "" [] (.bool true))
  | equal {a b r : Word} {dest : Option Nat} (ends : arena.EqualEndsWith a b (.ok r))
    (range : arena.InRange dest) :
    Does arena (.equal a b dest) (.next (arena.writeAnswer dest r) "" [] (.word r))
  | equalFails {a b : Word} {dest : Option Nat} {e : ArenaError}
    (ends : arena.EqualEndsWith a b (.error e)) : Does arena (.equal a b dest) (.fail (.arena e))
  | print {w : Word} {dest : Option Nat} {text : String} (ends : arena.RenderEndsWith w (.ok text))
    (range : arena.InRange dest) :
    Does arena (.print w dest) (.next (arena.writeAnswer dest w) (text ++ "\n") [] (.word w))
  | printFails {w : Word} {dest : Option Nat} {e : ArenaError}
    (ends : arena.RenderEndsWith w (.error e)) : Does arena (.print w dest) (.fail (.arena e))
  | printAt {index : Nat} {w : Word} {text : String} (found : arena.words[index]? = some w)
    (ends : arena.RenderEndsWith w (.ok text)) :
    Does arena (.printAt index) (.next arena (text ++ "\n") [] (.word w))
  | printAtFails {index : Nat} {w : Word} {e : ArenaError} (found : arena.words[index]? = some w)
    (ends : arena.RenderEndsWith w (.error e)) : Does arena (.printAt index) (.fail (.arena e))
  | error {code : Int} : Does arena (.error code) (.fail (.fault (Fault.ofCode code)))
  | host {words : Nat} {sink : Sink} {program : List Step} :
    Does arena (.host words sink program) (.next arena "" (Execution.refusalEvents words)
      (.hosted (.error (Execution.refusal words)) sink))
  | ret {w : Word} : Does arena (.ret w) (.leave w)
  | retAt {index : Nat} {w : Word} (found : arena.words[index]? = some w) :
    Does arena (.retAt index) (.leave w)

/-! ## what a program does -/

inductive Ending where
  | returned (w : Word)
  | failed (e : Failure)

structure Course where
  arena : Arena
  output : String
  events : List Event
  /-- What the steps told that went on. -/
  answers : List Answer
  ending : Ending

namespace Course

def after (course : Course) (output : String) (events : List Event) (answer : Answer) : Course where
  arena := course.arena
  output := output ++ course.output
  events := events ++ course.events
  answers := answer :: course.answers
  ending := course.ending

def ended (arena : Arena) (ending : Ending) : Course := ⟨arena, "", [], [], ending⟩

end Course

/-- What a program does over an arena: its steps are taken in order, up to the first one that leaves
or fails. -/
inductive Program.Takes : Arena → List Step → Course → Prop where
  | done {arena : Arena} : Takes arena [] (.ended arena (.returned 0))
  | leave {arena : Arena} {step : Step} {w : Word} (does : step.Does arena (.leave w))
    (later : List Step) : Takes arena (step :: later) (.ended arena (.returned w))
  | fail {arena : Arena} {step : Step} {e : Failure} (does : step.Does arena (.fail e))
    (later : List Step) : Takes arena (step :: later) (.ended arena (.failed e))
  | next {arena arena' : Arena} {step : Step} {later : List Step} {output : String}
    {events : List Event} {answer : Answer} {course : Course}
    (does : step.Does arena (.next arena' output events answer))
    (rest : Takes arena' later course) :
    Takes arena (step :: later) (course.after output events answer)

/-! ## the walks that steps begin -/

namespace Arena

variable {arena : Arena} {a b w : Word} {e : ArenaError}

theorem renderEndsWith_zero (arena : Arena) : arena.RenderEndsWith 0 (.ok "0") :=
  ⟨1, run_renderWithin_of_atom (layer_of_atom (a := .int 0) (by decide))⟩

theorem dangling_of_renderEndsWith (h : arena.RenderEndsWith w (.error e)) : arena.Dangling e := by
  obtain ⟨depth, hdepth⟩ := h
  exact arena.renderWithin_failsOnly depth w e hdepth

theorem dangling_of_equalEndsWith (h : arena.EqualEndsWith a b (.error e)) : arena.Dangling e := by
  obtain ⟨depth, hdepth⟩ := h
  rw [Walk.run_map] at hdepth
  obtain ⟨outcome, houtcome, hmap⟩ := Option.map_eq_some_iff.mp hdepth
  cases outcome with
  | ok r => contradiction
  | error e' =>
    cases hmap
    exact arena.equalWithin_failsOnly depth a b e houtcome

end Arena

/-! ## programs that have a course -/

/-- The step accesses words of the arena only, and its walk ends.  The word that it leaves with can
be rendered, or meets a record that is not inside the arena. -/
def Step.Proper (arena : Arena) : Step → Prop
  | .store index words => ∀ i < words.length, index + i < arena.size
  | .load index => index < arena.size
  | .equal a b dest => (∃ e, arena.EqualEndsWith a b (.error e)) ∨
    (∃ r, arena.EqualEndsWith a b (.ok r)) ∧ arena.InRange dest
  | .print w dest => (∃ e, arena.RenderEndsWith w (.error e)) ∨
    (∃ text, arena.RenderEndsWith w (.ok text)) ∧ arena.InRange dest
  | .printAt index => ∃ w, arena.words[index]? = some w ∧ ∃ outcome, arena.RenderEndsWith w outcome
  | .ret w => ∃ outcome, arena.RenderEndsWith w outcome
  | .retAt index => ∃ w, arena.words[index]? = some w ∧ ∃ outcome, arena.RenderEndsWith w outcome
  | .installed | .error _ | .host _ _ _ => True

/-- Each step that the program comes to is proper over the arena that it finds. -/
def Program.Orderly : Arena → List Step → Prop
  | _, [] => True
  | arena, step :: later =>
    step.Proper arena ∧ ∀ arena' output events answer,
      step.Does arena (.next arena' output events answer) → Orderly arena' later

section
variable {arena : Arena} {step : Step} {program : List Step} {course course' : Course}

theorem Step.Does.unique {effect effect' : Effect} (h : step.Does arena effect)
    (h' : step.Does arena effect') : effect = effect' := by
  cases h with
  | store | installed | error | host | ret =>
    cases h'
    rfl
  | load found =>
    cases h' with
    | load found' => cases found.symm.trans found'; rfl
  | retAt found =>
    cases h' with
    | retAt found' => cases found.symm.trans found'; rfl
  | equal ends =>
    cases h' with
    | equal ends' => cases Arena.equalEndsWith_unique ends ends'; rfl
    | equalFails ends' => cases Arena.equalEndsWith_unique ends ends'
  | equalFails ends =>
    cases h' with
    | equal ends' => cases Arena.equalEndsWith_unique ends ends'
    | equalFails ends' => cases Arena.equalEndsWith_unique ends ends'; rfl
  | print ends =>
    cases h' with
    | print ends' => cases Arena.renderEndsWith_unique ends ends'; rfl
    | printFails ends' => cases Arena.renderEndsWith_unique ends ends'
  | printFails ends =>
    cases h' with
    | print ends' => cases Arena.renderEndsWith_unique ends ends'
    | printFails ends' => cases Arena.renderEndsWith_unique ends ends'; rfl
  | printAt found ends =>
    cases h' with
    | printAt found' ends' =>
      cases found.symm.trans found'
      cases Arena.renderEndsWith_unique ends ends'
      rfl
    | printAtFails found' ends' =>
      cases found.symm.trans found'
      cases Arena.renderEndsWith_unique ends ends'
  | printAtFails found ends =>
    cases h' with
    | printAt found' ends' =>
      cases found.symm.trans found'
      cases Arena.renderEndsWith_unique ends ends'
    | printAtFails found' ends' =>
      cases found.symm.trans found'
      cases Arena.renderEndsWith_unique ends ends'
      rfl

theorem Program.Takes.unique (h : Program.Takes arena program course)
    (h' : Program.Takes arena program course') : course = course' := by
  induction h generalizing course' with
  | done =>
    cases h'
    rfl
  | leave does later =>
    cases h' with
    | leave does' => cases does.unique does'; rfl
    | fail does' => cases does.unique does'
    | next does' => cases does.unique does'
  | fail does later =>
    cases h' with
    | leave does' => cases does.unique does'
    | fail does' => cases does.unique does'; rfl
    | next does' => cases does.unique does'
  | next does _ ih =>
    cases h' with
    | leave does' => cases does.unique does'
    | fail does' => cases does.unique does'
    | next does' rest' =>
      cases does.unique does'
      rw [ih rest']

theorem Step.Proper.exists_effect (h : step.Proper arena) :
    ∃ effect, step.Does arena effect ∧
      ∀ w, effect = .leave w → ∃ outcome, arena.RenderEndsWith w outcome := by
  cases step with
  | store index words => exact ⟨_, .store h, nofun⟩
  | load index =>
    have hfound : arena.words[index]? = some arena.words[index] := Array.getElem?_eq_getElem h
    exact ⟨_, .load hfound, nofun⟩
  | installed => exact ⟨_, .installed, nofun⟩
  | equal a b dest =>
    rcases h with ⟨e, he⟩ | ⟨⟨r, hr⟩, hdest⟩
    · exact ⟨_, .equalFails he, nofun⟩
    · exact ⟨_, .equal hr hdest, nofun⟩
  | print w dest =>
    rcases h with ⟨e, he⟩ | ⟨⟨text, htext⟩, hdest⟩
    · exact ⟨_, .printFails he, nofun⟩
    · exact ⟨_, .print htext hdest, nofun⟩
  | printAt index =>
    obtain ⟨w, hfound, outcome, hends⟩ := h
    cases outcome with
    | error e => exact ⟨_, .printAtFails hfound hends, nofun⟩
    | ok text => exact ⟨_, .printAt hfound hends, nofun⟩
  | error code => exact ⟨_, .error, nofun⟩
  | host words sink program => exact ⟨_, .host, nofun⟩
  | ret w =>
    refine ⟨_, .ret, ?_⟩
    rintro w ⟨⟩
    exact h
  | retAt index =>
    obtain ⟨w, hfound, hends⟩ := h
    refine ⟨_, .retAt hfound, ?_⟩
    rintro w ⟨⟩
    exact hends

/-- **An orderly program has a course.**  The rendering of the word that it returns ends. -/
theorem Program.Orderly.exists_course (h : Program.Orderly arena program) :
    ∃ course, Program.Takes arena program course ∧
      ∀ w, course.ending = .returned w → ∃ outcome, course.arena.RenderEndsWith w outcome := by
  -- by recursion on the steps: the arena is the one that the steps before left behind
  induction program generalizing arena with
  | nil =>
    refine ⟨_, .done, ?_⟩
    rintro w ⟨⟩
    exact ⟨_, arena.renderEndsWith_zero⟩
  | cons step later ih =>
    obtain ⟨hproper, hlater⟩ := h
    obtain ⟨effect, hdoes, hrenders⟩ := hproper.exists_effect
    cases effect with
    | next arena' output events answer =>
      obtain ⟨course, htakes, hcourse⟩ := ih (hlater arena' output events answer hdoes)
      exact ⟨_, .next hdoes htakes, hcourse⟩
    | leave w =>
      refine ⟨_, .leave hdoes later, ?_⟩
      rintro w ⟨⟩
      exact hrenders w rfl
    | fail e => exact ⟨_, .fail hdoes later, nofun⟩

theorem Step.Does.failure {e : Failure} (h : step.Does arena (.fail e)) :
    (∃ code, step = .error code ∧ e = .fault (Fault.ofCode code)) ∨
      ∃ offset, e = .arena (.outOfBounds offset arena.size) := by
  cases h with
  | error => exact .inl ⟨_, rfl, rfl⟩
  | equalFails ends =>
    obtain ⟨offset, rfl⟩ := Arena.dangling_of_equalEndsWith ends
    exact .inr ⟨offset, rfl⟩
  | printFails ends =>
    obtain ⟨offset, rfl⟩ := Arena.dangling_of_renderEndsWith ends
    exact .inr ⟨offset, rfl⟩
  | printAtFails found ends =>
    obtain ⟨offset, rfl⟩ := Arena.dangling_of_renderEndsWith ends
    exact .inr ⟨offset, rfl⟩

/-- A program that fails does so at one of its steps.  The steps behind it have no effect. -/
theorem Program.Takes.exists_split_of_failed {e : Failure} (h : Program.Takes arena program course)
    (hfailed : course.ending = .failed e) :
    ∃ before step later, program = before ++ step :: later ∧ step.Does course.arena (.fail e) ∧
      ∀ later', Program.Takes arena (before ++ step :: later') course := by
  induction h with
  | done => contradiction
  | leave does later => contradiction
  | @fail arena step e' does later =>
    cases hfailed
    exact ⟨[], step, later, rfl, does, fun later' => .fail does later'⟩
  | @next arena arena' step later output events answer course does _ ih =>
    obtain ⟨before, failing, later', rfl, hfails, htakes⟩ := ih hfailed
    exact ⟨step :: before, failing, later', rfl, hfails, fun later'' => .next does (htakes later'')⟩

end

end TaggedWords
