import TaggedWords.Proofs.Log.Levels

/-!
# Which directive decides

Of the directives of a filter that are about an event, the most specific one decides, and the last
one of those that are equally specific.  It shows the event if the level of the event is within its
threshold.  A filter that names levels and targets only therefore selects by level and target.

* `Directive.DecidesIn`            a directive decides about an event;
* `Filter.decisive?_eq_some_iff`   the directive that is found is the one that decides;
* `Filter.shows_iff`               an event is shown if that directive lets its level through;
* `Filter.shows_congr`             selection by level and target;
* `Filter.IsQuiet`                 a filter that shows nothing of what the runtime notes;
* `Filter.isQuiet_ofText`          texts that stand for quiet filters.
-/

namespace TaggedWords

theorem Event.debug_le_level (event : Event) : Level.debug.number ≤ event.level.number := by
  have htrace : Level.debug.number ≤ Level.trace.number := by decide
  cases event with
  | allocated | returned | terminating => exact Nat.le_refl _
  | comparing | rendering => exact htrace

/-! ## how specific directives are -/

namespace Subject

theorem isAtMost_total (s t : Subject) : s.isAtMost t = true ∨ t.isAtMost s = true := by
  cases s with
  | all | withinSpans => exact .inl rfl
  | having field =>
    cases t with
    | all | withinSpans => exact .inr rfl
    | having other =>
      exact (String.le_total field other).imp decide_eq_true decide_eq_true

theorem isAtMost_trans {s t u : Subject} (h : s.isAtMost t = true) (h' : t.isAtMost u = true) :
    s.isAtMost u = true := by
  cases s with
  | all | withinSpans => rfl
  | having field =>
    cases t with
    | all | withinSpans => contradiction
    | having other =>
      cases u with
      | all | withinSpans => contradiction
      | having last =>
        exact decide_eq_true (String.le_trans (of_decide_eq_true h) (of_decide_eq_true h'))

end Subject

namespace Directive

variable {d e f x : Directive} {ds : List Directive} {event : Event}

theorem isAtMost_iff : d.isAtMost e = true ↔ d.target.length < e.target.length ∨
    d.target.length = e.target.length ∧ d.subject.isAtMost e.subject = true := by
  rw [isAtMost, Bool.or_eq_true, Bool.and_eq_true, decide_eq_true_iff, decide_eq_true_iff]

theorem isAtMost_total (d e : Directive) : d.isAtMost e = true ∨ e.isAtMost d = true := by
  rw [isAtMost_iff, isAtMost_iff]
  rcases Nat.lt_trichotomy d.target.length e.target.length with hlt | heq | hgt
  · exact .inl (.inl hlt)
  · exact (d.subject.isAtMost_total e.subject).imp (.inr ⟨heq, ·⟩) (.inr ⟨heq.symm, ·⟩)
  · exact .inr (.inl hgt)

theorem isAtMost_trans (h : d.isAtMost e = true) (h' : e.isAtMost f = true) :
    d.isAtMost f = true := by
  rw [isAtMost_iff] at *
  rcases h with hlt | ⟨heq, hsubject⟩
  · exact .inl (by omega)
  · rcases h' with hlt' | ⟨heq', hsubject'⟩
    · exact .inl (by omega)
    · exact .inr ⟨heq.trans heq', Subject.isAtMost_trans hsubject hsubject'⟩

/-! ## the directive that decides -/

/-- Of some directives, this one decides about an event.  It is about the event; of the others that
are, those before it are at most as specific, and those behind it are less specific. -/
def DecidesIn (d : Directive) (ds : List Directive) (event : Event) : Prop :=
  d.covers event = true ∧ ∃ before behind, ds = before ++ d :: behind ∧
    (∀ e ∈ before, e.covers event = true → e.isAtMost d = true) ∧
    ∀ e ∈ behind, e.covers event = true → d.isAtMost e = false

theorem DecidesIn.mem (h : d.DecidesIn ds event) : d ∈ ds := by
  obtain ⟨-, before, behind, rfl, -⟩ := h
  exact List.mem_append_right before List.mem_cons_self

theorem decidesIn_cons_of_none (hcovers : d.covers event = true)
    (hrest : ∀ e ∈ ds, e.covers event = true → d.isAtMost e = false) :
    d.DecidesIn (d :: ds) event :=
  ⟨hcovers, [], ds, rfl, fun _ hmem => absurd hmem List.not_mem_nil, hrest⟩

theorem DecidesIn.cons (h : d.DecidesIn ds event)
    (hx : x.covers event = true → x.isAtMost d = true) : d.DecidesIn (x :: ds) event := by
  obtain ⟨hcovers, before, behind, rfl, hbefore, hbehind⟩ := h
  refine ⟨hcovers, x :: before, behind, rfl, fun e hmem => ?_, hbehind⟩
  rcases List.mem_cons.mp hmem with rfl | hmem
  · exact hx
  · exact hbefore e hmem

theorem DecidesIn.isAtMost_eq_false (h : d.DecidesIn ds event) (hx : x.isAtMost d = false) :
    ∀ e ∈ ds, e.covers event = true → x.isAtMost e = false := by
  obtain ⟨-, before, behind, rfl, hbefore, hbehind⟩ := h
  have hdx : d.isAtMost x = true := (isAtMost_total x d).resolve_left (by rw [hx]; decide)
  intro e hmem hcovers
  refine Bool.eq_false_iff.mpr fun hxe => ?_
  rcases List.mem_append.mp hmem with hmem | hmem
  · exact Bool.eq_false_iff.mp hx (isAtMost_trans hxe (hbefore e hmem hcovers))
  · rcases List.mem_cons.mp hmem with rfl | hmem
    · exact Bool.eq_false_iff.mp hx hxe
    · exact Bool.eq_false_iff.mp (hbehind e hmem hcovers) (isAtMost_trans hdx hxe)

theorem exists_decidesIn (h : ∃ d ∈ ds, d.covers event = true) :
    ∃ d : Directive, d.DecidesIn ds event := by
  induction ds with
  | nil =>
    obtain ⟨d, hmem, -⟩ := h
    exact absurd hmem List.not_mem_nil
  | cons x rest ih =>
    by_cases hrest : ∃ d ∈ rest, d.covers event = true
    · obtain ⟨d, hd⟩ := ih hrest
      cases hx : x.isAtMost d with
      | true => exact ⟨d, hd.cons fun _ => hx⟩
      | false =>
        by_cases hcovers : x.covers event = true
        · exact ⟨x, decidesIn_cons_of_none hcovers (hd.isAtMost_eq_false hx)⟩
        · exact ⟨d, hd.cons fun hcovers' => absurd hcovers' hcovers⟩
    · obtain ⟨d, hmem, hcovers⟩ := h
      rcases List.mem_cons.mp hmem with rfl | hmem
      · exact ⟨d, decidesIn_cons_of_none hcovers fun e he hcovers' =>
          absurd ⟨e, he, hcovers'⟩ hrest⟩
      · exact absurd ⟨d, hmem, hcovers⟩ hrest

end Directive

namespace Filter

variable {filter : Filter} {event event' : Event} {d : Directive} {text : String}

/-! ## finding it -/

theorem mem_of_foldl_moreSpecific {ds : List Directive} {decided : Option Directive}
    (h : ds.foldl moreSpecific decided = some d) : decided = some d ∨ d ∈ ds := by
  induction ds generalizing decided with
  | nil => exact .inl h
  | cons x rest ih =>
    rcases ih h with hstep | hmem
    · cases decided with
      | none => exact .inr (Option.some.inj hstep ▸ List.mem_cons_self)
      | some e =>
        rw [moreSpecific] at hstep
        split at hstep
        · exact .inr (Option.some.inj hstep ▸ List.mem_cons_self)
        · exact .inl hstep
    · exact .inr (List.mem_cons_of_mem x hmem)

theorem foldl_moreSpecific_of_less {ds : List Directive}
    (h : ∀ e ∈ ds, d.isAtMost e = false) : ds.foldl moreSpecific (some d) = some d := by
  induction ds with
  | nil => rfl
  | cons x rest ih =>
    have hx : moreSpecific (some d) x = some d :=
      if_neg (Bool.eq_false_iff.mp (h x List.mem_cons_self))
    rw [List.foldl_cons, hx]
    exact ih fun e he => h e (List.mem_cons_of_mem x he)

theorem moreSpecific_of_atMost {decided : Option Directive}
    (h : ∀ e, decided = some e → e.isAtMost d = true) : moreSpecific decided d = some d := by
  cases decided with
  | none => rfl
  | some e => exact if_pos (h e rfl)

theorem decisive?_of_decidesIn (h : d.DecidesIn filter.directives event) :
    filter.decisive? event = some d := by
  obtain ⟨hcovers, before, behind, hsplit, hbefore, hbehind⟩ := h
  have hstep : moreSpecific ((before.filter (·.covers event)).foldl moreSpecific none) d =
      some d := by
    refine moreSpecific_of_atMost fun e he => ?_
    rcases mem_of_foldl_moreSpecific he with hnone | hmem
    · contradiction
    · obtain ⟨hmem, hcovers'⟩ := List.mem_filter.mp hmem
      exact hbefore e hmem hcovers'
  have hkept : (d :: behind).filter (·.covers event) = d :: behind.filter (·.covers event) :=
    List.filter_cons_of_pos hcovers
  rw [decisive?, hsplit, List.filter_append, hkept, List.foldl_append, List.foldl_cons, hstep]
  refine foldl_moreSpecific_of_less fun e he => ?_
  obtain ⟨hmem, hcovers'⟩ := List.mem_filter.mp he
  exact hbehind e hmem hcovers'

theorem mem_of_decisive? (h : filter.decisive? event = some d) :
    d ∈ filter.directives ∧ d.covers event = true := by
  rcases mem_of_foldl_moreSpecific h with hnone | hmem
  · contradiction
  · exact List.mem_filter.mp hmem

theorem decisive?_eq_some_iff :
    filter.decisive? event = some d ↔ d.DecidesIn filter.directives event := by
  refine ⟨fun h => ?_, decisive?_of_decidesIn⟩
  obtain ⟨e, he⟩ := Directive.exists_decidesIn ⟨d, mem_of_decisive? h⟩
  have hsame : d = e := Option.some.inj (h.symm.trans (decisive?_of_decidesIn he))
  rw [hsame]
  exact he

/-! ## what is shown -/

/-- **A filter shows an event if the directive that decides lets its level through.** -/
theorem shows_iff : filter.shows event = true ↔
    ∃ d : Directive, d.DecidesIn filter.directives event ∧
      event.level.number ≤ d.threshold.number := by
  simp only [← decisive?_eq_some_iff, shows]
  cases filter.decisive? event with
  | none =>
    refine iff_of_false Bool.false_ne_true ?_
    rintro ⟨d, hd, -⟩
    contradiction
  | some e =>
    rw [decide_eq_true_iff]
    refine ⟨fun hlevel => ⟨e, rfl, hlevel⟩, ?_⟩
    rintro ⟨d, hd, hlevel⟩
    rw [Option.some.inj hd]
    exact hlevel

/-- A filter of levels and targets does not tell two events of one level and one origin apart. -/
theorem shows_congr (hsubjects : ∀ d ∈ filter.directives, d.subject = .all)
    (horigin : event.origin = event'.origin) (hlevel : event.level = event'.level) :
    filter.shows event = filter.shows event' := by
  have hcovers : ∀ d ∈ filter.directives, d.covers event = d.covers event' := by
    intro d hd
    rw [Directive.covers, Directive.covers, horigin, hsubjects d hd]
    rfl
  rw [shows, shows, decisive?, decisive?, List.filter_congr hcovers, hlevel]

/-! ## quiet filters -/

/-- No directive of the filter lets the level `debug` through. -/
def IsQuiet (filter : Filter) : Prop :=
  ∀ d ∈ filter.directives, d.threshold.number < Level.debug.number

theorem IsQuiet.shows (h : filter.IsQuiet) (event : Event) : filter.shows event = false := by
  refine Bool.eq_false_iff.mpr fun hshows => ?_
  obtain ⟨d, hdecides, hlevel⟩ := shows_iff.mp hshows
  have hdebug := event.debug_le_level
  have hquiet := h d hdecides.mem
  omega

theorem IsQuiet.lines (h : filter.IsQuiet) (events : List Event) : filter.lines events = "" :=
  lines_of_silent h.shows events

theorem isQuiet_atLevel {level : Level} (h : level.number < Level.debug.number) :
    (atLevel level).IsQuiet := by
  intro d hd
  rw [List.mem_singleton.mp hd]
  exact h

/-! ## the filters of texts -/

theorem ofText_error : ofText "error" = atLevel .error :=
  ofText_of_directive (by decide) (by decide) (by decide +kernel)

theorem ofText_empty : ofText "" = atLevel .error := by
  have hkept : [""].filter (!·.isEmpty) = [] := by decide
  rw [ofText, read?, splitOn_of_not_mem (by decide), hkept]
  rfl

theorem ofText_of_unreadable (h : read? text = none) : ofText text = atLevel .warn := by
  rw [ofText, h]
  rfl

/-- **The filters of these texts are quiet.**  A text that cannot be read is one of them. -/
theorem isQuiet_ofText
    (h : text = "warn" ∨ text = "error" ∨ text = "" ∨ read? text = none) :
    (ofText text).IsQuiet := by
  have hlevel : ∃ level, ofText text = atLevel level ∧ level.number < Level.debug.number := by
    rcases h with rfl | rfl | rfl | hunreadable
    · exact ⟨.warn, ofText_default, by decide⟩
    · exact ⟨.error, ofText_error, by decide⟩
    · exact ⟨.error, ofText_empty, by decide⟩
    · exact ⟨.warn, ofText_of_unreadable hunreadable, by decide⟩
  obtain ⟨level, hofText, hquiet⟩ := hlevel
  rw [hofText]
  exact isQuiet_atLevel hquiet

end Filter

end TaggedWords
