import TaggedWords.Proofs.Walk.Failing
import TaggedWords.Proofs.Walk.Loop
import TaggedWords.Proofs.Walk.Nesting
import TaggedWords.Walk.RenderStack

/-!
# Rendering by recursion and with a work stack

The work stack holds what the nested calls of the recursion still have to write, those of the
innermost call uppermost: words, and the commas and parentheses between and behind them.  So the
loop has to give what was written so far, followed by what the recursion says of all pending pieces
in order, up to the first record outside the arena: this is the invariant of every round.

* `Arena.renderAll`         what the recursion says of pending pieces;
* `Piece`, `Arena.renderRound`   one round of the loop, with no bound on anything;
* `renderPending_outcome`   the stack under bounds gives what the recursion says;
* `endsWith_of_renderPending`, `exists_bound_of_endsWith_renderRound`   so does the loop without
                            bounds;
* `Arena.RendersTo`         rendering ends with an outcome in every way;
* `render_agrees_with_stack`   the two renderings are one function.
-/

namespace TaggedWords

/-! ## texts behind a text -/

/-- The text of a walk, written behind `out`. -/
def Walk.behind (walk : Walk String) (out : String) : Walk String := (fun t => out ++ t) <$> walk

namespace Walk

variable {α : Type} (walk : Walk String) (out : String)

theorem behind_empty : walk.behind "" = walk := by
  rw [behind]
  simp only [String.empty_append, id_map']

theorem behind_pure (t : String) : (pure t : Walk String).behind out = pure (out ++ t) := by
  rw [behind, map_pure]

theorem behind_behind (out' : String) :
    (walk.behind out).behind out' = walk.behind (out' ++ out) := by
  rw [behind, behind, behind, Functor.map_map]
  simp only [String.append_assoc]

theorem behind_bind (p : Walk α) (f : α → Walk String) :
    (p >>= f).behind out = p >>= fun a => (f a).behind out := by
  rw [behind, map_bind]
  rfl

theorem run_behind : (walk.behind out).run = walk.run.map (Except.map fun t => out ++ t) :=
  run_map _ walk

theorem Within.behind {p q : Walk String} (h : p.Within q) (out : String) :
    (p.behind out).Within (q.behind out) := h.map fun t => out ++ t

end Walk

namespace Arena

variable {arena : Arena} {w : Word} {bound : Nat} {rest : List PendingPiece}

/-! ## what the recursion says of pending pieces -/

def renderPiece (arena : Arena) : PendingPiece → Walk String
  | .word bound w => arena.renderWithin bound w
  | .text t => pure t

/-- What the recursion says of pending pieces, one behind the other. -/
def renderAll (arena : Arena) : List PendingPiece → Walk String
  | [] => pure ""
  | p :: rest => arena.renderPiece p >>= fun t => (renderAll arena rest).behind t

theorem renderAll_append (arena : Arena) (ps qs : List PendingPiece) :
    arena.renderAll (ps ++ qs) = arena.renderAll ps >>= fun t => (arena.renderAll qs).behind t := by
  induction ps with
  | nil =>
    rw [List.nil_append, renderAll, pure_bind, Walk.behind_empty]
  | cons p ps ih =>
    rw [List.cons_append, renderAll, renderAll, ih, bind_assoc]
    refine bind_congr fun t => ?_
    rw [Walk.behind_bind, Walk.behind, bind_map_left]
    refine bind_congr fun t' => ?_
    rw [Walk.behind_behind]

theorem renderAll_singleton (arena : Arena) (p : PendingPiece) :
    arena.renderAll [p] = arena.renderPiece p := by
  rw [renderAll]
  refine (bind_congr fun t => ?_).trans (bind_pure _)
  rw [renderAll, Walk.behind_pure, String.append_empty]

theorem renderAll_text (arena : Arena) (t : String) (rest : List PendingPiece) :
    arena.renderAll (.text t :: rest) = (arena.renderAll rest).behind t := by
  rw [renderAll, renderPiece, pure_bind]

theorem renderAll_ofElements (arena : Arena) (bound : Nat) (elements : List Word) :
    arena.renderAll (PendingPiece.ofElements bound elements) =
      (fun texts => ",".intercalate texts ++ ")") <$>
        elements.mapM (arena.renderWithin bound) := by
  fun_induction PendingPiece.ofElements bound elements with
  | case1 => rfl
  | case2 w => simp [renderAll, renderPiece, Walk.behind]
  | case3 w rest hrest ih =>
    -- behind the first element stands a comma, because there is a second one
    obtain _ | ⟨x, rest⟩ := rest
    · contradiction
    · rw [renderAll, renderPiece, renderAll_text, ih]
      simp [Walk.behind, String.append_assoc]

theorem renderAll_zero (arena : Arena) (w : Word) (rest : List PendingPiece) :
    (arena.renderAll (.word 0 w :: rest)).run = none := rfl

theorem renderAll_of_error {e : ArenaError} (h : arena.layer w = .error e) :
    (arena.renderAll (.word (bound + 1) w :: rest)).run = some (.error e) := by
  rw [renderAll]
  exact Walk.run_bind_of_error (run_renderWithin_of_error h) _

theorem renderAll_of_atom {a : Atom} (h : arena.layer w = .ok (.atom a)) :
    (arena.renderAll (.word (bound + 1) w :: rest)).run =
      ((arena.renderAll rest).behind a.text).run := by
  rw [renderAll]
  exact Walk.run_bind_of_ok (run_renderWithin_of_atom h) _

theorem renderAll_of_tuple {elements : List Word} (h : arena.layer w = .ok (.tuple elements)) :
    arena.renderAll (.word (bound + 1) w :: rest) =
      (arena.renderAll (PendingPiece.ofElements bound elements ++ rest)).behind "(" := by
  rw [renderAll_append, renderAll_ofElements, renderAll, renderPiece, renderWithin_of_tuple h,
    Walk.behind_bind, bind_map_left, bind_map_left]
  refine bind_congr fun texts => ?_
  rw [Walk.behind_behind, tupleText, String.append_assoc]

/-! ## the stack under bounds -/

/-- The loop adds what the recursion says of the pending pieces to what was written. -/
theorem renderPending_outcome (arena : Arena) (visits : Array Visit) (out : String)
    (pending : Stack PendingPiece) :
    (arena.renderPending visits out pending).map Traced.outcome =
      ((arena.renderAll pending.items).behind out).run := by
  fun_induction renderPending arena visits out pending with
  | case1 visits out pending hpop =>
    rw [Stack.items_of_pop?_eq_none hpop, renderAll, Walk.behind_pure, String.append_empty]
    rfl
  | case2 visits out pending t rest hpop ih =>
    rw [Stack.items_of_pop?_eq_some hpop, renderAll_text, Walk.behind_behind, ih]
  | case3 visits out pending w rest hpop =>
    rw [Stack.items_of_pop?_eq_some hpop, Walk.run_behind, renderAll_zero]
    rfl
  | case4 visits out pending bound w rest hpop e hl =>
    rw [Stack.items_of_pop?_eq_some hpop, Walk.run_behind, renderAll_of_error hl]
    rfl
  | case5 visits out pending bound w rest hpop a hl ih =>
    rw [Stack.items_of_pop?_eq_some hpop, Walk.run_behind, renderAll_of_atom hl,
      ← Walk.run_behind, Walk.behind_behind, ih]
  | case6 visits out pending bound w rest hpop elements hl ih =>
    rw [Stack.items_of_pop?_eq_some hpop, renderAll_of_tuple hl, Walk.behind_behind, ih,
      Stack.items_push]

theorem renderByStack_eq_render (arena : Arena) (w : Word) :
    arena.renderByStack w = arena.render w := by
  have h := arena.renderPending_outcome #[] "" (.singleton (.word arena.renderBound w))
  rw [Stack.items_singleton, renderAll_singleton, Walk.behind_empty] at h
  exact ExceptT.ext h

end Arena

/-! ## the loop without bounds -/

inductive Piece where
  | word (w : Word)
  | text (t : String)

namespace Piece

def ofElements : List Word → List Piece
  | [] => [.text ")"]
  | [w] => [.word w, .text ")"]
  | w :: rest => .word w :: .text "," :: ofElements rest

def under (bound : Nat) : Piece → PendingPiece
  | .word w => .word bound w
  | .text t => .text t

theorem map_under_ofElements (bound : Nat) (elements : List Word) :
    (ofElements elements).map (under bound) = PendingPiece.ofElements bound elements := by
  fun_induction ofElements elements with
  | case1 => rfl
  | case2 w => rfl
  | case3 w rest hrest ih =>
    obtain _ | ⟨x, rest⟩ := rest
    · contradiction
    · rw [List.map_cons, List.map_cons, ih]
      rfl

def ofPending : PendingPiece → Piece
  | .word _ w => .word w
  | .text t => .text t

theorem ofPending_under (bound : Nat) (p : Piece) : ofPending (p.under bound) = p := by
  cases p <;> rfl

theorem map_ofPending_ofElements (bound : Nat) (elements : List Word) :
    (PendingPiece.ofElements bound elements).map ofPending = ofElements elements := by
  rw [← map_under_ofElements, List.map_map]
  refine (List.map_congr_left fun p _ => ?_).trans (List.map_id _)
  exact ofPending_under bound p

end Piece

namespace Arena

variable {arena : Arena} {w : Word}

/-- One round of the loop: the text so far and the pieces behind it.  Nothing is bounded. -/
def renderRound (arena : Arena) :
    String × List Piece → Round (String × List Piece) (Except ArenaError String)
  | (out, []) => .done (.ok out)
  | (out, .text t :: rest) => .next (out ++ t, rest)
  | (out, .word w :: rest) =>
    match arena.layer w with
    | .error e => .done (.error e)
    | .ok (.atom a) => .next (out ++ a.text, rest)
    | .ok (.tuple elements) => .next (out ++ "(", Piece.ofElements elements ++ rest)

theorem endsWith_of_renderPending {visits : Array Visit} {out : String}
    {pending : Stack PendingPiece} {t : Traced String}
    (h : arena.renderPending visits out pending = some t) :
    Loop.EndsWith arena.renderRound (out, pending.items.map Piece.ofPending) t.outcome := by
  fun_induction renderPending arena visits out pending with
  | case1 visits out pending hpop =>
    cases h
    rw [Stack.items_of_pop?_eq_none hpop]
    exact Loop.endsWith_of_done rfl
  | case2 visits out pending t rest hpop ih =>
    rw [Stack.items_of_pop?_eq_some hpop, List.map_cons]
    exact Loop.endsWith_of_next rfl (ih h)
  | case3 visits out pending w rest hpop => contradiction
  | case4 visits out pending bound w rest hpop e hl =>
    cases h
    rw [Stack.items_of_pop?_eq_some hpop, List.map_cons, Piece.ofPending]
    refine Loop.endsWith_of_done ?_
    rw [renderRound, hl]
  | case5 visits out pending bound w rest hpop a hl ih =>
    rw [Stack.items_of_pop?_eq_some hpop, List.map_cons, Piece.ofPending]
    refine Loop.endsWith_of_next ?_ (ih h)
    rw [renderRound, hl]
  | case6 visits out pending bound w rest hpop elements hl ih =>
    have ih' := ih h
    rw [Stack.items_push, List.map_append, Piece.map_ofPending_ofElements] at ih'
    rw [Stack.items_of_pop?_eq_some hpop, List.map_cons, Piece.ofPending]
    refine Loop.endsWith_of_next ?_ ih'
    rw [renderRound, hl]

theorem renderAll_under_succ (arena : Arena) (bound : Nat) (pieces : List Piece) :
    (arena.renderAll (pieces.map (Piece.under bound))).Within
      (arena.renderAll (pieces.map (Piece.under (bound + 1)))) := by
  induction pieces with
  | nil => exact .refl _
  | cons p rest ih =>
    rw [List.map_cons, List.map_cons, renderAll, renderAll]
    cases p with
    | word w => exact (arena.renderWithin_succ bound w).bind fun t _ => ih.behind t
    | text t => exact (Walk.Within.refl _).bind fun t _ => ih.behind t

theorem run_renderAll_of_done {state : String × List Piece} {outcome : Except ArenaError String}
    (h : arena.renderRound state = .done outcome) :
    ((arena.renderAll (state.2.map (Piece.under 1))).behind state.1).run = some outcome := by
  match state with
  | (out, []) =>
    cases h
    rw [List.map_nil, renderAll, Walk.behind_pure, String.append_empty]
    rfl
  | (out, .text t :: rest) => contradiction
  | (out, .word w :: rest) =>
    rw [renderRound] at h
    split at h
    · next e hl =>
      cases h
      rw [List.map_cons, Piece.under, Walk.run_behind, renderAll_of_error hl]
      rfl
    · contradiction
    · contradiction

theorem renderAll_within_of_next {state state' : String × List Piece}
    (h : arena.renderRound state = .next state') (bound : Nat) :
    ((arena.renderAll (state'.2.map (Piece.under bound))).behind state'.1).Within
      ((arena.renderAll (state.2.map (Piece.under (bound + 1)))).behind state.1) := by
  match state with
  | (out, []) => contradiction
  | (out, .text t :: rest) =>
    cases h
    have hrest := arena.renderAll_under_succ bound rest
    rw [List.map_cons, Piece.under, renderAll_text, Walk.behind_behind]
    exact hrest.behind _
  | (out, .word w :: rest) =>
    have hrest := arena.renderAll_under_succ bound rest
    rw [renderRound] at h
    rw [List.map_cons, Piece.under]
    split at h
    · contradiction
    · next a hl =>
      cases h
      intro outcome hends
      rw [Walk.run_behind, renderAll_of_atom hl, ← Walk.run_behind, Walk.behind_behind]
      exact hrest.behind _ outcome hends
    · next elements hl =>
      cases h
      rw [renderAll_of_tuple hl, Walk.behind_behind, renderAll_append, List.map_append,
        Piece.map_under_ofElements, renderAll_append]
      refine Walk.Within.behind ?_ _
      exact (Walk.Within.refl _).bind fun t _ => hrest.behind t

theorem exists_bound_of_endsWith_renderRound {state : String × List Piece}
    {outcome : Except ArenaError String} (h : Loop.EndsWith arena.renderRound state outcome) :
    ∃ bound, ((arena.renderAll (state.2.map (Piece.under bound))).behind state.1).run =
      some outcome := by
  induction h using Loop.EndsWith.induction with
  | done state hround => exact ⟨1, run_renderAll_of_done hround⟩
  | next state state' hround _ ih =>
    obtain ⟨bound, hbound⟩ := ih
    exact ⟨bound + 1, renderAll_within_of_next hround bound outcome hbound⟩

/-! ## the two renderings -/

/-- The recursion ends with an outcome.  Nothing bounds its nesting. -/
def RenderEndsWith (arena : Arena) (w : Word) (outcome : Except ArenaError String) : Prop :=
  ∃ depth, (arena.renderWithin depth w).run = some outcome

theorem renderEndsWith_unique {outcome outcome' : Except ArenaError String}
    (h : arena.RenderEndsWith w outcome) (h' : arena.RenderEndsWith w outcome') :
    outcome = outcome' :=
  Option.some.inj ((render_run_eq_some_iff.mpr h).symm.trans (render_run_eq_some_iff.mpr h'))

theorem run_renderByStack_eq_some_iff {outcome : Except ArenaError String} :
    (arena.renderByStack w).run = some outcome ↔
      Loop.EndsWith arena.renderRound ("", [.word w]) outcome := by
  constructor
  · intro h
    obtain ⟨t, ht, htraced⟩ := Option.map_eq_some_iff.mp h
    rw [← htraced]
    exact endsWith_of_renderPending ht
  · intro h
    obtain ⟨depth, hdepth⟩ := exists_bound_of_endsWith_renderRound h
    rw [Walk.behind_empty, List.map_cons, List.map_nil, renderAll_singleton] at hdepth
    rw [renderByStack_eq_render]
    exact render_run_eq_some_iff.mpr ⟨depth, hdepth⟩

theorem endsWith_renderRound_iff {outcome : Except ArenaError String} :
    arena.RenderEndsWith w outcome ↔ Loop.EndsWith arena.renderRound ("", [.word w]) outcome := by
  rw [← run_renderByStack_eq_some_iff, renderByStack_eq_render, render_run_eq_some_iff,
    RenderEndsWith]

/-- Rendering ends so in every way: by recursion and with a work stack, under the bounds as well. -/
structure RendersTo (arena : Arena) (w : Word) (outcome : Except ArenaError String) : Prop where
  recursion : arena.RenderEndsWith w outcome
  loop : Loop.EndsWith arena.renderRound ("", [.word w]) outcome
  render : (arena.render w).run = some outcome
  renderByStack : (arena.renderByStack w).run = some outcome

theorem rendersTo_of_renderEndsWith {outcome : Except ArenaError String}
    (h : arena.RenderEndsWith w outcome) : arena.RendersTo w outcome := by
  have hloop := endsWith_renderRound_iff.mp h
  exact ⟨h, hloop, render_run_eq_some_iff.mpr h, run_renderByStack_eq_some_iff.mpr hloop⟩

/-- **Rendering by recursion and rendering with a work stack are one function**, and the bounds
under which they run take nothing away from either. -/
theorem render_agrees_with_stack (arena : Arena) (w : Word) :
    (∀ text, arena.RenderEndsWith w (.ok text) ↔
      Loop.EndsWith arena.renderRound ("", [.word w]) (.ok text)) ∧
    (∀ offset words, arena.RenderEndsWith w (.error (.outOfBounds offset words)) ↔
      Loop.EndsWith arena.renderRound ("", [.word w]) (.error (.outOfBounds offset words))) ∧
    (∀ e, arena.RenderEndsWith w (.error e) → ∃ offset, e = .outOfBounds offset arena.size) ∧
    ((∀ outcome, ¬ arena.RenderEndsWith w outcome) ↔
      Loop.NeverEnds arena.renderRound ("", [.word w])) ∧
    arena.renderByStack w = arena.render w ∧
    (∀ outcome, (arena.render w).run = some outcome ↔ arena.RenderEndsWith w outcome) ∧
    (∀ outcome, (arena.renderByStack w).run = some outcome ↔
      Loop.EndsWith arena.renderRound ("", [.word w]) outcome) := by
  have hiff : ∀ outcome, arena.RenderEndsWith w outcome ↔
      Loop.EndsWith arena.renderRound ("", [.word w]) outcome := by
    intro outcome
    rw [RenderEndsWith, ← render_run_eq_some_iff, ← run_renderByStack_eq_some_iff,
      renderByStack_eq_render]
  refine ⟨fun text => hiff _, fun offset words => hiff _, ?_, ?_, arena.renderByStack_eq_render w,
    fun outcome => render_run_eq_some_iff, fun outcome => run_renderByStack_eq_some_iff⟩
  · intro e ⟨depth, h⟩
    exact arena.renderWithin_failsOnly depth w e h
  · rw [Loop.neverEnds_iff]
    exact forall_congr' fun outcome => not_congr (hiff outcome)

theorem render_agrees_with_stack_dangling :
    Loop.EndsWith (renderRound ⟨#[2, 2, 801, 0]⟩) ("", [.word 1])
        (.error (.outOfBounds 800 4)) ∧
      Loop.NeverEnds (renderRound ⟨#[1, 1]⟩) ("", [.word 1]) := by
  constructor
  · obtain ⟨-, herror, -⟩ := render_agrees_with_stack ⟨#[2, 2, 801, 0]⟩ 1
    exact (herror 800 4).mp ⟨2, rfl⟩
  · obtain ⟨-, -, -, hnever, -, hends, -⟩ := render_agrees_with_stack ⟨#[1, 1]⟩ 1
    have hnone : ((⟨#[1, 1]⟩ : Arena).render 1).run = none := by decide
    refine hnever.mp fun outcome h => ?_
    rw [(hends outcome).mpr h] at hnone
    contradiction

end Arena

end TaggedWords
