import TaggedWords.Log.Filter
import TaggedWords.Options.Basic
import TaggedWords.Proofs.Text.Pieces

/-!
# Filters of one level

A filter that names only a level lets an event through by the level of the event.  The default
filter is of this kind, and everything that the runtime notes is less important than its level.

* `Filter.shows_atLevel`         what a filter of one level lets through;
* `Filter.lines_of_silent`       a filter that lets no event through shows nothing;
* `Filter.ofText_of_directive`   the filter of a text that is one directive;
* `Filter.ofText_default`        the default filter;
* `Filter.lines_default`         the default filter shows nothing.
-/

namespace TaggedWords

theorem Event.warn_lt_level (event : Event) : Level.warn.number < event.level.number := by
  have hdebug : Level.warn.number < Level.debug.number := by decide
  have htrace : Level.warn.number < Level.trace.number := by decide
  cases event with
  | allocated | returned | terminating => exact hdebug
  | comparing | rendering => exact htrace

namespace Filter

theorem shows_atLevel (level : Level) (event : Event) :
    (atLevel level).shows event = decide (event.level.number ≤ level.number) := by
  have hcovers : (Directive.mk "" .all (some level)).covers event = true := rfl
  have hkept : (atLevel level).directives.filter (·.covers event) = (atLevel level).directives :=
    List.filter_cons_of_pos hcovers
  rw [shows, decisive?, hkept]
  rfl

theorem lines_of_silent {filter : Filter} (h : ∀ event, filter.shows event = false)
    (events : List Event) : filter.lines events = "" := by
  have hnone : events.filter filter.shows = [] :=
    List.filter_eq_nil_iff.mpr fun event _ => Bool.eq_false_iff.mp (h event)
  rw [lines, hnone]
  rfl

theorem ofText_of_directive {text : String} {d : Directive} (hcomma : ',' ∉ text.toList)
    (hnonempty : text.isEmpty = false) (hread : Directive.read? text = some d) :
    ofText text = ⟨[d]⟩ := by
  have hkept : [text].filter (!·.isEmpty) = [text] :=
    List.filter_cons_of_pos (by rw [hnonempty]; rfl)
  have hmap : [text].mapM Directive.read? = some [d] := by
    rw [List.mapM_cons, hread, List.mapM_nil]
    rfl
  simp only [ofText, read?, splitOn_of_not_mem hcomma, hkept, hmap]
  rfl

theorem ofText_default : ofText Options.default.logFilter = atLevel .warn :=
  ofText_of_directive (by decide) (by decide) (by decide +kernel)

/-- The default filter shows nothing of what the runtime notes. -/
theorem lines_default (events : List Event) :
    (ofText Options.default.logFilter).lines events = "" := by
  refine lines_of_silent (fun event => ?_) events
  rw [ofText_default, shows_atLevel]
  exact decide_eq_false (Nat.not_le_of_lt event.warn_lt_level)

end Filter

end TaggedWords
