import Std.Data.String.ToInt
import TaggedWords.Proofs.Numeral.Hex
import TaggedWords.Walk.Render

/-!
# Value trees

What a word stands for, with all references followed, is a finite tree: atoms at its leaves and
tuples at its inner nodes.  A tree needs no arena, and it has a text of its own.

* `Tree`, `Tree.text`      a value tree and its text;
* `isMark`                 the characters that delimit texts: no atom has one in its text;
* `Atom.text_injective`    different atoms have different texts.
-/

namespace TaggedWords

/-! ## the texts of atoms -/

/-- Whether a character delimits texts: those of elements from each other, or lines. -/
def isMark (c : Char) : Bool := c = '(' || c = ')' || c = ',' || c = '\n'

theorem isMark_of_isDigit {c : Char} (h : c.isDigit = true) : isMark c = false := by
  cases hmark : isMark c with
  | false => rfl
  | true =>
    simp only [isMark, Bool.or_eq_true, decide_eq_true_eq] at hmark
    rcases hmark with ((rfl | rfl) | rfl) | rfl <;> exact absurd h (by decide)

theorem isMark_of_mem {c : Char} {cs : List Char} (hcs : cs.any isMark = false) (hc : c ∈ cs) :
    isMark c = false :=
  Bool.eq_false_iff.mpr (List.any_eq_false.mp hcs c hc)

namespace Atom

theorem toList_text_negSucc (m : Nat) :
    (text (.int (.negSucc m))).toList = '-' :: (m + 1).repr.toList := by
  show ("-" ++ (m + 1).repr).toList = _
  simp

theorem mem_text_int {n : Int} {c : Char} (h : c ∈ (text (.int n)).toList) :
    c.isDigit = true ∨ c = '-' := by
  have hdigits : ∀ m : Nat, c ∈ m.repr.toList → c.isDigit = true := by
    intro m hm
    rw [Nat.toList_repr] at hm
    exact Nat.isDigit_of_mem_toDigits (by decide) (by decide) hm
  cases n with
  | ofNat m => exact .inl (hdigits m h)
  | negSucc m =>
    rw [toList_text_negSucc] at h
    rcases List.mem_cons.mp h with rfl | h
    · exact .inr rfl
    · exact .inl (hdigits (m + 1) h)

theorem toList_text_unknown (w : Word) :
    (text (.unknown w)).toList = "Unknown value: ".toList ++ (Hex.word w).toList :=
  String.toList_append

theorem isMark_of_mem_text {a : Atom} {c : Char} (h : c ∈ a.text.toList) : isMark c = false := by
  cases a with
  | int n =>
    rcases mem_text_int h with hdigit | rfl
    · exact isMark_of_isDigit hdigit
    · decide
  | bool b =>
    have hall : ∀ b, (text (.bool b)).toList.any isMark = false := by decide
    exact isMark_of_mem (hall b) h
  | unknown w =>
    rw [toList_text_unknown, Hex.toList_word] at h
    have hhead : "Unknown value: ".toList.any isMark = false := by decide
    have halphabet : ('0' :: 'x' :: Hex.alphabet).any isMark = false := by decide
    rcases List.mem_append.mp h with h | h
    · exact isMark_of_mem hhead h
    · refine isMark_of_mem halphabet ?_
      rcases List.mem_cons.mp h with rfl | h
      · exact List.mem_cons_self
      rcases List.mem_cons.mp h with rfl | h
      · exact List.mem_cons_of_mem _ List.mem_cons_self
      · exact List.mem_cons_of_mem _ (List.mem_cons_of_mem _ (Hex.mem_alphabet_of_mem_leftpad h))

theorem toList_text_ne_nil (a : Atom) : a.text.toList ≠ [] := by
  intro h
  cases a with
  | int n =>
    cases n with
    | ofNat m =>
      have hdigits : (text (.int (.ofNat m))).toList = Nat.toDigits 10 m := Nat.toList_repr
      exact Nat.toDigits_ne_nil (hdigits.symm.trans h)
    | negSucc m =>
      rw [toList_text_negSucc] at h
      contradiction
  | bool b => cases b <;> contradiction
  | unknown w =>
    rw [toList_text_unknown] at h
    contradiction

theorem exists_int_of_text {n : Int} {a : Atom} (h : text (.int n) = a.text) :
    ∃ m, a = .int m := by
  have hnot : ∀ c, c.isDigit = false → c ≠ '-' → c ∉ a.text.toList := by
    intro c hdigit hminus hc
    rw [← h] at hc
    rcases mem_text_int hc with hc | hc
    · rw [hc] at hdigit
      contradiction
    · exact hminus hc
  cases a with
  | int m => exact ⟨m, rfl⟩
  | bool b => cases b <;> exact absurd (by decide) (hnot 'e' (by decide) (by decide))
  | unknown w =>
    refine absurd ?_ (hnot 'U' (by decide) (by decide))
    rw [toList_text_unknown]
    exact List.mem_append_left _ (by decide)

theorem text_bool_ne_unknown (b : Bool) (w : Word) : text (.bool b) ≠ text (.unknown w) := by
  intro h
  have hmem : 'U' ∈ (text (.bool b)).toList := by
    rw [h, toList_text_unknown]
    exact List.mem_append_left _ (by decide)
  cases b <;> exact absurd hmem (by decide)

theorem text_injective {a b : Atom} (h : a.text = b.text) : a = b := by
  cases a with
  | int n =>
    obtain ⟨m, rfl⟩ := exists_int_of_text h
    rw [Int.repr_injective h]
  | bool b₁ =>
    cases b with
    | int m =>
      obtain ⟨_, h'⟩ := exists_int_of_text h.symm
      contradiction
    | bool b₂ =>
      have hall : ∀ b₁ b₂, text (.bool b₁) = text (.bool b₂) → b₁ = b₂ := by decide
      rw [hall b₁ b₂ h]
    | unknown w => exact absurd h (text_bool_ne_unknown b₁ w)
  | unknown v =>
    cases b with
    | int m =>
      obtain ⟨_, h'⟩ := exists_int_of_text h.symm
      contradiction
    | bool b₂ => exact absurd h.symm (text_bool_ne_unknown b₂ v)
    | unknown w =>
      have hlists := congrArg String.toList h
      rw [toList_text_unknown, toList_text_unknown] at hlists
      rw [Hex.word_injective (String.toList_injective (List.append_cancel_left hlists))]

end Atom

/-! ## trees -/

/-- What a word stands for, with all references followed. -/
inductive Tree where
  | atom (a : Atom)
  | node (children : List Tree)

namespace Tree

/-- What holds of atoms, and of a node whenever it holds of its children, holds of every tree. -/
@[elab_as_elim, induction_eliminator]
theorem induction {motive : Tree → Prop} (atom : ∀ a, motive (.atom a))
    (node : ∀ children, (∀ t ∈ children, motive t) → motive (.node children)) :
    ∀ t, motive t
  | .atom a => atom a
  | .node children => node children fun t _ => induction atom node t

mutual

def text : Tree → String
  | .atom a => a.text
  | .node children => tupleText (texts children)

def texts : List Tree → List String
  | [] => []
  | t :: ts => text t :: texts ts

end

@[simp] theorem text_atom (a : Atom) : text (.atom a) = a.text := rfl

theorem texts_eq_map (ts : List Tree) : texts ts = ts.map text := by
  induction ts with
  | nil => rfl
  | cons t ts ih => rw [texts, ih, List.map_cons]

@[simp] theorem text_node (children : List Tree) :
    text (.node children) = tupleText (children.map text) := by
  rw [text, texts_eq_map]

end Tree

end TaggedWords
