import TaggedWords.Proofs.Tree.Basic
import TaggedWords.Proofs.Walk.Order

/-!
# Unfolding words

Unfolding a word follows all its references and gives its tree.  Rendering is unfolding and writing
the tree down, so what rendering cannot tell apart is what has one tree.

* `Arena.unfoldWithin`                the tree of a word;
* `renderWithin_eq_text_unfoldWithin` rendering a word gives the text of its tree.
-/

namespace TaggedWords

namespace Arena

variable {arena : Arena} {w : Word} {bound : Nat}

def unfoldWithin (arena : Arena) : Nat → Word → Walk Tree
  | 0, _ => .endless
  | bound + 1, w => do
    match ← Walk.ofExcept (arena.layer w) with
    | .atom a => return .atom a
    | .tuple elements => return .node (← elements.mapM (unfoldWithin arena bound))

theorem run_unfoldWithin_of_error {e : ArenaError} (h : arena.layer w = .error e) :
    (arena.unfoldWithin (bound + 1) w).run = some (.error e) := by
  rw [unfoldWithin, h]
  rfl

theorem run_unfoldWithin_of_atom {a : Atom} (h : arena.layer w = .ok (.atom a)) :
    (arena.unfoldWithin (bound + 1) w).run = some (.ok (.atom a)) := by
  rw [unfoldWithin, h]
  rfl

theorem unfoldWithin_of_tuple {elements : List Word} (h : arena.layer w = .ok (.tuple elements)) :
    arena.unfoldWithin (bound + 1) w =
      Tree.node <$> elements.mapM (arena.unfoldWithin bound) := by
  rw [unfoldWithin, h]
  rfl

/-- Rendering a word gives the text of its tree. -/
theorem renderWithin_eq_text_unfoldWithin (arena : Arena) (bound : Nat) (w : Word) :
    arena.renderWithin bound w = Tree.text <$> arena.unfoldWithin bound w := by
  induction bound generalizing w with
  | zero => rfl
  | succ bound ih =>
    cases hl : arena.layer w with
    | error e =>
      refine ExceptT.ext ?_
      rw [run_renderWithin_of_error hl, Walk.run_map, run_unfoldWithin_of_error hl]
      rfl
    | ok layer =>
      cases layer with
      | atom a =>
        refine ExceptT.ext ?_
        rw [run_renderWithin_of_atom hl, Walk.run_map, run_unfoldWithin_of_atom hl]
        rfl
      | tuple elements =>
        have hfun : arena.renderWithin bound = fun x => Tree.text <$> arena.unfoldWithin bound x :=
          funext ih
        rw [renderWithin_of_tuple hl, unfoldWithin_of_tuple hl, hfun, Walk.mapM_map,
          Functor.map_map, Functor.map_map]
        simp only [Tree.text_node]

theorem run_renderWithin_eq_ok {s : String} :
    (arena.renderWithin bound w).run = some (.ok s) ↔
      ∃ t : Tree, (arena.unfoldWithin bound w).run = some (.ok t) ∧ t.text = s := by
  rw [renderWithin_eq_text_unfoldWithin]
  exact Walk.run_map_eq_ok

end Arena

end TaggedWords
