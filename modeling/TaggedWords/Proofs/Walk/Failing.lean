import TaggedWords.Proofs.Walk.Order
import TaggedWords.Walk.Equal
import TaggedWords.Walk.Render

/-!
# How walks fail

Comparing and rendering fail in one way only: they meet a record that is not inside the arena.  The
error then tells the size of the arena.

* `Walk.FailsOnly`                  every error of a walk is of a kind;
* `Arena.Dangling`                  the error of a record that is not inside the arena;
* `equalWithin_failsOnly`, `renderWithin_failsOnly`   comparing and rendering have no other.
-/

namespace TaggedWords

namespace Walk

variable {α β : Type} {kind : ArenaError → Prop}

/-- Every error of the walk is of a kind. -/
def FailsOnly (kind : ArenaError → Prop) (walk : Walk α) : Prop :=
  ∀ e, walk.run = some (.error e) → kind e

theorem FailsOnly.pure (a : α) : FailsOnly kind (pure a : Walk α) := by
  intro e h
  rw [run_pure] at h
  cases h

theorem FailsOnly.endless : FailsOnly kind (endless : Walk α) := by
  intro e h
  rw [run_endless] at h
  cases h

theorem FailsOnly.bind {walk : Walk α} {next : α → Walk β} (hwalk : FailsOnly kind walk)
    (hnext : ∀ a, FailsOnly kind (next a)) : FailsOnly kind (walk >>= next) := by
  intro e h
  rcases run_bind_eq_some.mp h with ⟨e', he', heq⟩ | ⟨a, -, ha⟩
  · cases heq
    exact hwalk e he'
  · exact hnext a e ha

theorem FailsOnly.mapM {f : α → Walk β} (h : ∀ x, FailsOnly kind (f x)) (xs : List α) :
    FailsOnly kind (xs.mapM f) := by
  induction xs with
  | nil => exact .pure []
  | cons x xs ih =>
    rw [List.mapM_cons]
    exact (h x).bind fun y => ih.bind fun ys => .pure (y :: ys)

theorem FailsOnly.allM {f : α → Walk Bool} (h : ∀ x, FailsOnly kind (f x)) (xs : List α) :
    FailsOnly kind (xs.allM f) := by
  induction xs with
  | nil => exact .pure true
  | cons x xs ih =>
    rw [List.allM_cons]
    refine (h x).bind fun b => ?_
    cases b with
    | false => exact .pure false
    | true => exact ih

end Walk

namespace Arena

def Dangling (arena : Arena) (e : ArenaError) : Prop :=
  ∃ offset, e = .outOfBounds offset arena.size

theorem equalWithin_failsOnly (arena : Arena) (bound : Nat) (a b : Word) :
    Walk.FailsOnly arena.Dangling (arena.equalWithin bound a b) := by
  induction bound generalizing a b with
  | zero => exact .endless
  | succ bound ih =>
    rw [equalWithin]
    refine Walk.FailsOnly.bind (fun e h => compare_eq_error (Option.some.inj h)) fun c => ?_
    cases c with
    | same => exact .pure true
    | different => exact .pure false
    | elementwise pairs => exact .allM (fun p => ih p.1 p.2) pairs

theorem renderWithin_failsOnly (arena : Arena) (bound : Nat) (w : Word) :
    Walk.FailsOnly arena.Dangling (arena.renderWithin bound w) := by
  induction bound generalizing w with
  | zero => exact .endless
  | succ bound ih =>
    rw [renderWithin]
    refine Walk.FailsOnly.bind (fun e h => layer_eq_error (Option.some.inj h)) fun layer => ?_
    cases layer with
    | atom a => exact .pure a.text
    | tuple elements => exact (Walk.FailsOnly.mapM ih elements).bind fun texts => .pure _

end Arena

end TaggedWords
