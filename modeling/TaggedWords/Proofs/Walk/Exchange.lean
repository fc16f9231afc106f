import Mathlib.Data.List.Zip
import TaggedWords.Proofs.Walk.EqualLoop

/-!
# Equal words in comparisons

A word that compares equal to another can take its place in every comparison, on either side.  The
other comparison then ends in the same way, even if it meets a record outside the arena, and with
the same record; or it never ends either.  Nothing is assumed of the arena.

The bounds make this an equation of walks: words that are equal under a bound can be exchanged under
every bound that is at least as large.

* `Comparison.swap`          what a comparison finds with its sides exchanged;
* `run_equalWithin_swap`     an answer does not depend on the order of the two words;
* `Layer.compareWith`        what a known tuple and the outermost layer of another word tell;
* `equalWithin_exchange`     equal words can be exchanged in both places of a comparison;
* `equalWord_exchange`       the same for comparisons without bounds.
-/

namespace TaggedWords

def Comparison.swap : Comparison → Comparison
  | .same => .same
  | .different => .different
  | .elementwise pairs => .elementwise (pairs.map Prod.swap)

/-- What a tuple and the outermost layer of another word tell, if `known` compares tuples. -/
def Layer.compareWith (known : List Word → Comparison) : Layer → Comparison
  | .atom _ => .different
  | .tuple elements => known elements

namespace Walk

/-! ## comparing element by element -/

section
variable {α : Type} {h : α → α → Walk Bool} {xs ys : List α}

theorem allM_map_swap (f : α × α → Walk Bool) (pairs : List (α × α)) :
    (pairs.map Prod.swap).allM f = pairs.allM fun p => f p.swap := by
  induction pairs with
  | nil => rfl
  | cons p pairs ih =>
    rw [List.map_cons, List.allM_cons, List.allM_cons, ih]

theorem allM_zip_congr (zs : List α) (hlen : xs.length = ys.length)
    (hpairs : ∀ p ∈ xs.zip ys, ∀ z, h p.1 z = h p.2 z) :
    ((xs.zip zs).allM fun p => h p.1 p.2) = (ys.zip zs).allM fun p => h p.1 p.2 := by
  induction xs generalizing ys zs with
  | nil =>
    have hys : ys = [] := List.eq_nil_of_length_eq_zero hlen.symm
    rw [hys]
  | cons x xs ih =>
    obtain _ | ⟨y, ys⟩ := ys
    · contradiction
    obtain _ | ⟨z, zs⟩ := zs
    · rfl
    rw [List.zip_cons_cons, List.forall_mem_cons] at hpairs
    have hhead : h x z = h y z := hpairs.1 z
    have htail := ih zs (Nat.succ.inj hlen) hpairs.2
    rw [List.zip_cons_cons, List.zip_cons_cons, List.allM_cons, List.allM_cons, hhead, htail]

end

end Walk

namespace Arena

variable {arena : Arena} {a b c : Word} {n m : Nat} {xs ys : List Word}

/-! ## the order of the two words -/

theorem compare_swap {x : Comparison} (h : arena.compare a b = .ok x) :
    arena.compare b a = .ok x.swap := by
  have hc := arena.compared a b
  rw [h] at hc
  cases hc with
  | identical same =>
    rw [same]
    exact compare_self arena b
  | atomLeft ne left =>
    rw [compare, if_neg ne.symm, left]
    cases Value.decode b <;> rfl
  | atomRight ne left right =>
    rw [compare, if_neg ne.symm, right]
    rfl
  | @lengths r s xs ys ne left right foundLeft foundRight length =>
    rw [compare, if_neg ne.symm, right, left]
    show (arena.record s >>= fun ys => arena.record r >>= fun xs => pure (compareRecords ys xs)) = _
    rw [foundLeft, foundRight]
    show Except.ok (compareRecords ys xs) = _
    rw [compareRecords, if_neg (Ne.symm length)]
    rfl
  | @elements r s xs ys ne left right foundLeft foundRight length =>
    rw [compare, if_neg ne.symm, right, left]
    show (arena.record s >>= fun ys => arena.record r >>= fun xs => pure (compareRecords ys xs)) = _
    rw [foundLeft, foundRight]
    show Except.ok (compareRecords ys xs) = _
    rw [compareRecords, if_pos length.symm, Comparison.swap, List.zip_swap]

theorem run_equalWithin_swap {r : Bool} (h : (arena.equalWithin n a b).run = some (.ok r)) :
    (arena.equalWithin n b a).run = some (.ok r) := by
  induction n generalizing a b r with
  | zero => contradiction
  | succ n ih =>
    cases hc : arena.compare a b with
    | error e =>
      rw [run_equalWithin_of_error hc] at h
      cases h
    | ok x =>
      have hswap := compare_swap hc
      cases x with
      | same => rwa [run_equalWithin_of_same hswap, ← run_equalWithin_of_same hc]
      | different => rwa [run_equalWithin_of_different hswap, ← run_equalWithin_of_different hc]
      | elementwise pairs =>
        rw [equalWithin_of_elementwise hc] at h
        rw [equalWithin_of_elementwise hswap, Walk.allM_map_swap]
        exact Walk.run_allM_of_ok (fun p _ r hr => ih hr) h

/-! ## comparing with a known tuple -/

theorem compare_of_tuple_left (ne : a ≠ c) (ha : arena.layer a = .ok (.tuple xs)) :
    arena.compare a c =
      (arena.layer c).map (Layer.compareWith fun zs => compareRecords xs zs) := by
  have hlayered := arena.layered a
  rw [ha] at hlayered
  cases hlayered with
  | @tuple r _ value found =>
    rw [compare, if_neg ne, value, layer]
    cases hc : Value.decode c with
    | atom y => rfl
    | tuple s =>
      show (arena.record r >>= fun xs => arena.record s >>= fun zs => pure (compareRecords xs zs)) =
        ((arena.record s).map Layer.tuple).map _
      rw [found]
      cases arena.record s <;> rfl

theorem compare_of_tuple_right (ne : c ≠ a) (ha : arena.layer a = .ok (.tuple xs)) :
    arena.compare c a =
      (arena.layer c).map (Layer.compareWith fun zs => compareRecords zs xs) := by
  have hlayered := arena.layered a
  rw [ha] at hlayered
  cases hlayered with
  | @tuple r _ value found =>
    rw [compare, if_neg ne, value, layer]
    cases hc : Value.decode c with
    | atom y => rfl
    | tuple s =>
      show (arena.record s >>= fun zs => arena.record r >>= fun xs => pure (compareRecords zs xs)) =
        ((arena.record s).map Layer.tuple).map _
      rw [found]
      cases arena.record s <;> rfl

/-! ## exchanging equal words -/

/-- Two words can be exchanged in both places of a comparison with `c`, under a bound. -/
def Exchange (arena : Arena) (m : Nat) (a b c : Word) : Prop :=
  arena.equalWithin m a c = arena.equalWithin m b c ∧
    arena.equalWithin m c a = arena.equalWithin m c b

theorem Exchange.symm (h : arena.Exchange m a b c) : arena.Exchange m b a c :=
  ⟨h.1.symm, h.2.symm⟩

theorem exchange_self (h : (arena.equalWithin (m + 1) a b).run = some (.ok true)) :
    arena.Exchange (m + 1) a b a := by
  have hself : (arena.equalWithin (m + 1) a a).run = some (.ok true) :=
    run_equalWithin_of_same (compare_self arena a)
  constructor
  · apply ExceptT.ext
    rw [hself, run_equalWithin_swap h]
  · apply ExceptT.ext
    rw [hself, h]

theorem exchange_of_tuples (hac : a ≠ c) (hbc : b ≠ c) (ha : arena.layer a = .ok (.tuple xs))
    (hb : arena.layer b = .ok (.tuple ys)) (hlen : xs.length = ys.length)
    (hpairs : ∀ p ∈ xs.zip ys, ∀ z, arena.Exchange m p.1 p.2 z) :
    arena.Exchange (m + 1) a b c := by
  have hleft := fun zs => Walk.allM_zip_congr zs hlen fun p hp z => (hpairs p hp z).1
  have hright := fun zs => Walk.allM_zip_congr (h := fun x z => arena.equalWithin m z x) zs hlen
    fun p hp z => (hpairs p hp z).2
  constructor
  · rw [equalWithin, equalWithin, compare_of_tuple_left hac ha, compare_of_tuple_left hbc hb]
    cases arena.layer c with
    | error e => rfl
    | ok layer =>
      cases layer with
      | atom x => rfl
      | tuple zs =>
        show (Walk.ofExcept (.ok (compareRecords xs zs)) >>= _) =
          (Walk.ofExcept (.ok (compareRecords ys zs)) >>= _)
        rw [compareRecords, compareRecords, hlen]
        split
        · exact hleft zs
        · rfl
  · rw [equalWithin, equalWithin, compare_of_tuple_right hac.symm ha,
      compare_of_tuple_right hbc.symm hb]
    cases arena.layer c with
    | error e => rfl
    | ok layer =>
      cases layer with
      | atom x => rfl
      | tuple zs =>
        show (Walk.ofExcept (.ok (compareRecords zs xs)) >>= _) =
          (Walk.ofExcept (.ok (compareRecords zs ys)) >>= _)
        rw [compareRecords, compareRecords, hlen]
        split
        · show (zs.zip xs).allM _ = (zs.zip ys).allM _
          rw [← List.zip_swap xs zs, ← List.zip_swap ys zs, Walk.allM_map_swap, Walk.allM_map_swap]
          exact hright zs
        · rfl

/-- **Words that are equal under a bound can be exchanged** under every bound that is at least as
large. -/
theorem equalWithin_exchange (h : (arena.equalWithin n a b).run = some (.ok true)) (hm : n ≤ m)
    (c : Word) : arena.Exchange m a b c := by
  induction n generalizing a b c m with
  | zero => contradiction
  | succ n ih =>
    obtain _ | m := m
    · contradiction
    have habove : (arena.equalWithin (m + 1) a b).run = some (.ok true) :=
      Walk.within_of_le arena.equalWithin_succ hm (a, b) _ h
    by_cases hac : a = c
    · rw [← hac]
      exact exchange_self habove
    by_cases hbc : b = c
    · rw [← hbc]
      exact (exchange_self (run_equalWithin_swap habove)).symm
    generalize hc : arena.compare a b = comparison
    have hcompared := arena.compared a b
    rw [hc] at hcompared
    cases hcompared with
    | identical same =>
      rw [same]
      exact ⟨rfl, rfl⟩
    | atomLeft | atomRight | lengths =>
      rw [run_equalWithin_of_different hc] at h
      cases h
    | danglingLeft | danglingRight =>
      rw [run_equalWithin_of_error hc] at h
      cases h
    | elements ne left right foundLeft foundRight length =>
      rw [equalWithin_of_elementwise hc, Walk.run_allM_eq_true] at h
      have hpairs := fun p hp z => ih (h p hp) (Nat.le_of_succ_le_succ hm) z
      exact exchange_of_tuples hac hbc (layer_of_record left foundLeft)
        (layer_of_record right foundRight) length hpairs

/-! ## comparisons without bounds -/

theorem exchange_of_equalEndsWith (h : arena.EqualEndsWith a b (.ok trueWord)) (c : Word) :
    arena.equalWord a c = arena.equalWord b c ∧ arena.equalWord c a = arena.equalWord c b := by
  have hword : (arena.equalWord a b).run = some (.ok trueWord) := run_equalWord_eq_some_iff.mpr h
  obtain ⟨r, hr, htrue⟩ := Walk.run_map_eq_ok.mp hword
  rw [← Word.ofBool_true, Word.ofBool_inj] at htrue
  rw [htrue] at hr
  have hexchange := equalWithin_exchange hr (Nat.le_refl arena.equalBound) c
  constructor
  · show Word.ofBool <$> arena.equalWithin _ a c = Word.ofBool <$> arena.equalWithin _ b c
    rw [hexchange.1]
  · show Word.ofBool <$> arena.equalWithin _ c a = Word.ofBool <$> arena.equalWithin _ c b
    rw [hexchange.2]

/-- Two comparisons end with one boolean word or at one record outside the arena, or never. -/
inductive SameEnd (arena : Arena) (p q : Word × Word) : Prop where
  | answer (r : Bool) (left : arena.EqualEndsWith p.1 p.2 (.ok (.ofBool r)))
    (right : arena.EqualEndsWith q.1 q.2 (.ok (.ofBool r))) : SameEnd arena p q
  | dangling (offset : Word)
    (left : arena.EqualEndsWith p.1 p.2 (.error (.outOfBounds offset arena.size)))
    (right : arena.EqualEndsWith q.1 q.2 (.error (.outOfBounds offset arena.size))) :
    SameEnd arena p q
  | never (left : ∀ outcome, ¬ arena.EqualEndsWith p.1 p.2 outcome)
    (right : ∀ outcome, ¬ arena.EqualEndsWith q.1 q.2 outcome) : SameEnd arena p q

theorem sameEnd_of_eq {p q : Word × Word}
    (h : arena.equalWord p.1 p.2 = arena.equalWord q.1 q.2) : arena.SameEnd p q := by
  have hends : ∀ outcome, arena.EqualEndsWith q.1 q.2 outcome ↔
      arena.EqualEndsWith p.1 p.2 outcome := by
    intro outcome
    rw [← run_equalWord_eq_some_iff, ← run_equalWord_eq_some_iff, h]
  cases hrun : (arena.equal p.1 p.2).run with
  | none =>
    have hnever : ∀ outcome, ¬ arena.EqualEndsWith p.1 p.2 outcome := by
      intro outcome ho
      rw [← run_equalWord_eq_some_iff, equalWord, Walk.run_map, hrun] at ho
      contradiction
    exact .never hnever fun outcome ho => hnever outcome ((hends outcome).mp ho)
  | some outcome =>
    have hp : arena.EqualEndsWith p.1 p.2 (outcome.map Word.ofBool) := by
      rw [← run_equalWord_eq_some_iff, equalWord, Walk.run_map, hrun]
      rfl
    cases outcome with
    | ok r => exact .answer r hp ((hends _).mpr hp)
    | error e =>
      obtain ⟨offset, rfl⟩ := arena.equalWithin_failsOnly _ _ _ e hrun
      exact .dangling offset hp ((hends _).mpr hp)

/-- **Equal words are interchangeable in every comparison**, on either side and however it ends. -/
theorem equalWord_exchange (arena : Arena) (a b : Word)
    (h : arena.EqualEndsWith a b (.ok trueWord)) (c : Word) :
    arena.SameEnd (a, c) (b, c) ∧ arena.SameEnd (c, a) (c, b) ∧
    (∀ outcome, arena.EqualEndsWith a c outcome ↔ arena.EqualEndsWith b c outcome) ∧
    (∀ outcome, arena.EqualEndsWith c a outcome ↔ arena.EqualEndsWith c b outcome) ∧
    (arena.EqualEndsWith b c (.ok trueWord) → arena.EqualEndsWith a c (.ok trueWord)) := by
  obtain ⟨hleft, hright⟩ := exchange_of_equalEndsWith h c
  have hleftEnds : ∀ outcome,
      arena.EqualEndsWith a c outcome ↔ arena.EqualEndsWith b c outcome := by
    intro outcome
    rw [← run_equalWord_eq_some_iff, ← run_equalWord_eq_some_iff, hleft]
  refine ⟨sameEnd_of_eq hleft, sameEnd_of_eq hright, hleftEnds, ?_, (hleftEnds _).mpr⟩
  intro outcome
  rw [← run_equalWord_eq_some_iff, ← run_equalWord_eq_some_iff, hright]

/-- A record that holds itself compares equal to a copy, and can be exchanged for it. -/
theorem equalWord_exchange_circles :
    (⟨#[1, 1, 1, 1, 1, 17]⟩ : Arena).EqualEndsWith 1 9 (.ok trueWord) ∧
      (∀ outcome, ¬ (⟨#[1, 1, 1, 1, 1, 17]⟩ : Arena).EqualEndsWith 9 17 outcome) ∧
      (⟨#[1, 1, 1, 1, 1, 17]⟩ : Arena).EqualEndsWith 9 801 (.error (.outOfBounds 800 6)) := by
  have hequal : (⟨#[1, 1, 1, 1, 1, 17]⟩ : Arena).EqualEndsWith 1 9 (.ok trueWord) := ⟨2, rfl⟩
  refine ⟨hequal, ?_, ?_⟩
  · obtain ⟨-, -, hends, -⟩ := equalWord_exchange ⟨#[1, 1, 1, 1, 1, 17]⟩ 1 9 hequal 17
    have hnone : ((⟨#[1, 1, 1, 1, 1, 17]⟩ : Arena).equalWord 1 17).run = none := by
      decide +kernel
    intro outcome h
    have hrun := run_equalWord_eq_some_iff.mpr ((hends outcome).mpr h)
    rw [hnone] at hrun
    exact Option.some_ne_none outcome hrun.symm
  · obtain ⟨-, -, hends, -⟩ := equalWord_exchange ⟨#[1, 1, 1, 1, 1, 17]⟩ 1 9 hequal 801
    exact (hends _).mp ⟨1, rfl⟩

end Arena

end TaggedWords
