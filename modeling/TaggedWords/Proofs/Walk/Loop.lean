/-!
# Loops without a bound

A loop takes its state through one round after the other until a round leaves it.  Nothing bounds
the number of rounds, so a loop may never be left.

* `Round`                what one round leads to: a next state, or the result of the loop;
* `Loop.within`          the result of a loop that is left within so many rounds;
* `Loop.after`           the state after so many rounds, if none of them leaves the loop;
* `Loop.EndsWith`        the loop is left with a result, after some number of rounds;
* `Loop.NeverEnds`       no number of rounds suffices.
-/

namespace TaggedWords

inductive Round (σ ρ : Type) where
  | next (state : σ)
  | done (result : ρ)

namespace Loop

variable {σ ρ : Type} {round : σ → Round σ ρ} {s s' : σ} {r : ρ}

def within (round : σ → Round σ ρ) : Nat → σ → Option ρ
  | 0, _ => none
  | n + 1, s =>
    match round s with
    | .next s' => within round n s'
    | .done r => some r

/-- The loop that starts in the state `s` is left with the result `r`. -/
def EndsWith (round : σ → Round σ ρ) (s : σ) (r : ρ) : Prop :=
  ∃ n, within round n s = some r

def NeverEnds (round : σ → Round σ ρ) (s : σ) : Prop :=
  ∀ n, within round n s = none

theorem neverEnds_iff : NeverEnds round s ↔ ∀ r, ¬ EndsWith round s r := by
  constructor
  · rintro h r ⟨n, hn⟩
    rw [h n] at hn
    contradiction
  · intro h n
    cases hn : within round n s with
    | none => rfl
    | some r => exact absurd ⟨n, hn⟩ (h r)

theorem endsWith_of_done (h : round s = .done r) : EndsWith round s r := by
  refine ⟨1, ?_⟩
  rw [within, h]

theorem endsWith_of_next (h : round s = .next s') (h' : EndsWith round s' r) :
    EndsWith round s r := by
  obtain ⟨n, hn⟩ := h'
  refine ⟨n + 1, ?_⟩
  rw [within, h]
  exact hn

/-- What holds where a round leaves the loop with `r`, and is handed back over every round, holds
wherever the loop ends with `r`. -/
@[elab_as_elim]
theorem EndsWith.induction {motive : ∀ s, EndsWith round s r → Prop}
    (done : ∀ s (h : round s = .done r), motive s (endsWith_of_done h))
    (next : ∀ s s' (h : round s = .next s') (h' : EndsWith round s' r),
      motive s' h' → motive s (endsWith_of_next h h'))
    {s : σ} (h : EndsWith round s r) : motive s h := by
  obtain ⟨n, hn⟩ := h
  induction n generalizing s with
  | zero => contradiction
  | succ n ih =>
    have hround := hn
    rw [within] at hround
    split at hround
    · next s' hs => exact next s s' hs ⟨n, hround⟩ (ih hround)
    · next r' hs =>
      cases hround
      exact done s hs

/-! ## the states that a loop comes to -/

/-- The state after so many rounds, if none of them leaves the loop. -/
def after (round : σ → Round σ ρ) : Nat → σ → Option σ
  | 0, s => some s
  | n + 1, s =>
    match round s with
    | .next s' => after round n s'
    | .done _ => none

variable {n m : Nat} {s'' : σ}

theorem after_succ_of_next (h : round s = .next s') :
    after round (n + 1) s = after round n s' := by
  rw [after, h]

theorem after_add (h : after round n s = some s') (h' : after round m s' = some s'') :
    after round (n + m) s = some s'' := by
  induction n generalizing s with
  | zero =>
    cases h
    rw [Nat.zero_add]
    exact h'
  | succ n ih =>
    rw [after] at h
    split at h
    · next next hround =>
      rw [Nat.add_right_comm, after_succ_of_next hround]
      exact ih h
    · contradiction

end Loop

end TaggedWords
