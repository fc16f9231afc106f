import TaggedWords.Proofs.Numeral.Decimal
import TaggedWords.Proofs.Tree.Meaning

/-!
# The grammar of texts

A text is an integer in decimal, `true`, `false`, the note of an unrecognized word, or a list of
texts between parentheses with commas between them:

    V ::= integer | true | false | Unknown value: 0xhhhhhhhh | () | (V,V,…)

The grammar is given together with the tree that each text writes down.

* `Atom.Canonical`, `Tree.Canonical`   what words stand for;
* `Written`                    the grammar;
* `Tree.Canonical.written`     the text of a tree that a word stands for follows the grammar;
* `Tree.isPlain_of_mem_text`   texts are in ASCII and have no line break.
-/

namespace TaggedWords

/-! ## what words stand for -/

/-- Whether some word means the atom. -/
def Atom.Canonical (a : Atom) : Prop := ∃ w, Value.decode w = .atom a

theorem Atom.Canonical.decode_encode {a : Atom} (h : a.Canonical) :
    Value.decode a.encode = .atom a := by
  obtain ⟨w, hw⟩ := h
  rw [Value.encode_of_decode hw, hw]

namespace Tree

mutual

def Canonical : Tree → Prop
  | .atom a => a.Canonical
  | .node children => AllCanonical children

def AllCanonical : List Tree → Prop
  | [] => True
  | t :: ts => Canonical t ∧ AllCanonical ts

end

theorem canonical_atom {a : Atom} : Canonical (.atom a) ↔ a.Canonical := by rw [Canonical]

theorem allCanonical_iff {ts : List Tree} : AllCanonical ts ↔ ∀ t ∈ ts, t.Canonical := by
  induction ts with
  | nil => simp [AllCanonical]
  | cons t ts ih => rw [AllCanonical, ih, List.forall_mem_cons]

theorem canonical_node {children : List Tree} :
    Canonical (.node children) ↔ ∀ t ∈ children, t.Canonical := by
  rw [Canonical, allCanonical_iff]

end Tree

theorem UnfoldsTo.canonical {records : Records} {w : Word} {t : Tree}
    (h : UnfoldsTo records w t) : t.Canonical := by
  induction t generalizing w with
  | atom a => exact Tree.canonical_atom.mpr ⟨w, unfoldsTo_atom.mp h⟩
  | node children ih =>
    obtain ⟨_, _, _, _, hall⟩ := unfoldsTo_node.mp h
    refine Tree.canonical_node.mpr fun t ht => ?_
    obtain ⟨x, hx⟩ := exists_of_forall₂ hall ht
    exact ih t ht hx

/-! ## the grammar -/

mutual

inductive Written : Tree → List Char → Prop where
  | int {n : Int} {cs : List Char} (decimal : Decimal.IsInteger cs n) (low : -2 ^ 30 ≤ n)
    (high : n ≤ 2 ^ 30 - 1) : Written (.atom (.int n)) cs
  | true : Written (.atom (.bool true)) "true".toList
  | false : Written (.atom (.bool false)) "false".toList
  | unknown {w : Word} {digits : List Char} (value : Value.decode w = .atom (.unknown w))
    (length : digits.length = 8) (lower : ∀ c ∈ digits, c ∈ "0123456789abcdef".toList)
    (number : Hex.value digits = w.toNat) :
    Written (.atom (.unknown w)) ("Unknown value: 0x".toList ++ digits)
  | empty : Written (.node []) "()".toList
  | tuple {t : Tree} {ts : List Tree} {cs : List Char} (elements : WrittenElements t ts cs) :
    Written (.node (t :: ts)) ('(' :: (cs ++ [')']))

/-- Whether the characters write down a tree and the trees behind it, with commas between them. -/
inductive WrittenElements : Tree → List Tree → List Char → Prop where
  | last {t : Tree} {cs : List Char} (element : Written t cs) : WrittenElements t [] cs
  | more {t u : Tree} {us : List Tree} {cs ds : List Char} (element : Written t cs)
    (others : WrittenElements u us ds) : WrittenElements t (u :: us) (cs ++ ',' :: ds)

end

namespace Atom

theorem toList_text_unknown_eq (w : Word) :
    (text (.unknown w)).toList =
      "Unknown value: 0x".toList ++ (Hex.digits w.toNat).leftpad 8 '0' := by
  rw [toList_text_unknown, Hex.toList_word]
  rfl

theorem Canonical.written {a : Atom} (h : a.Canonical) : Written (.atom a) a.text.toList := by
  have hdecode := h.decode_encode
  cases a with
  | int n =>
    obtain ⟨hlow, hhigh⟩ := Value.range_of_decode hdecode
    exact .int (Decimal.isInteger_toString n) hlow hhigh
  | bool b =>
    cases b with
    | true => exact .true
    | false => exact .false
  | unknown w =>
    have hvalue : Value.decode w = .atom (.unknown w) := hdecode
    rw [toList_text_unknown_eq]
    refine .unknown hvalue (Hex.length_padded w) (fun c hc => Hex.mem_alphabet_of_mem_leftpad hc) ?_
    rw [Hex.value_leftpad, Hex.value_digits]

end Atom

namespace Tree

theorem exists_writtenElements (t : Tree) (ts : List Tree) (ht : Written t t.text.toList)
    (hts : ∀ u ∈ ts, Written u u.text.toList) :
    ∃ cs, WrittenElements t ts cs ∧ t.text.toList ++ tail ts = cs ++ [')'] := by
  induction ts generalizing t with
  | nil => exact ⟨t.text.toList, .last ht, rfl⟩
  | cons u us ih =>
    rw [List.forall_mem_cons] at hts
    obtain ⟨ds, hds, hrest⟩ := ih u hts.1 hts.2
    refine ⟨t.text.toList ++ ',' :: ds, .more ht hds, ?_⟩
    rw [tail, hrest, List.append_assoc]
    rfl

/-- **The text of a tree that a word stands for follows the grammar**, and writes down that tree. -/
theorem Canonical.written {t : Tree} (h : t.Canonical) : Written t t.text.toList := by
  induction t with
  | atom a => exact (canonical_atom.mp h).written
  | node children ih =>
    have hall : ∀ t ∈ children, Written t t.text.toList :=
      fun t ht => ih t ht (canonical_node.mp h t ht)
    cases children with
    | nil =>
      rw [toList_text_nil]
      exact .empty
    | cons t ts =>
      rw [List.forall_mem_cons] at hall
      obtain ⟨cs, hcs, htext⟩ := exists_writtenElements t ts hall.1 hall.2
      rw [toList_text_cons, htext]
      exact .tuple hcs

/-! ## the characters of texts -/

/-- Whether a character is in ASCII and no line break. -/
def IsPlain (c : Char) : Prop := c.toNat < 128 ∧ c ≠ '\n'

instance (c : Char) : Decidable (IsPlain c) :=
  inferInstanceAs (Decidable (c.toNat < 128 ∧ c ≠ '\n'))

theorem isPlain_of_mem {cs : List Char} (hcs : cs.all (fun c => decide (IsPlain c)) = true)
    {c : Char} (hc : c ∈ cs) : IsPlain c :=
  of_decide_eq_true (List.all_eq_true.mp hcs c hc)

theorem isPlain_of_isDigit {c : Char} (h : c.isDigit = true) : IsPlain c := by
  have hmark := isMark_of_isDigit h
  have hnine : '9'.toNat = 57 := rfl
  rw [Char.isDigit_iff_toNat] at h
  refine ⟨by omega, fun hc => ?_⟩
  rw [hc] at hmark
  contradiction

theorem isPlain_of_mem_text_atom {a : Atom} {c : Char} (h : c ∈ a.text.toList) : IsPlain c := by
  cases a with
  | int n =>
    rcases Atom.mem_text_int h with hdigit | rfl
    · exact isPlain_of_isDigit hdigit
    · decide
  | bool b =>
    cases b with
    | true => exact isPlain_of_mem (by decide) h
    | false => exact isPlain_of_mem (by decide) h
  | unknown w =>
    rw [Atom.toList_text_unknown_eq] at h
    rcases List.mem_append.mp h with h | h
    · exact isPlain_of_mem (by decide) h
    · have halphabet : Hex.alphabet.all (fun c => decide (IsPlain c)) = true := by decide
      exact isPlain_of_mem halphabet (Hex.mem_alphabet_of_mem_leftpad h)

theorem isPlain_of_mem_tail {ts : List Tree} (hts : ∀ t ∈ ts, ∀ c ∈ t.text.toList, IsPlain c)
    {c : Char} (h : c ∈ tail ts) : IsPlain c := by
  induction ts with
  | nil =>
    exact isPlain_of_mem (by decide) h
  | cons t ts ih =>
    rw [List.forall_mem_cons] at hts
    rcases List.mem_cons.mp h with rfl | h
    · decide
    rcases List.mem_append.mp h with h | h
    · exact hts.1 c h
    · exact ih hts.2 h

theorem isPlain_of_mem_text (t : Tree) : ∀ c ∈ t.text.toList, IsPlain c := by
  induction t with
  | atom a => exact fun c hc => isPlain_of_mem_text_atom hc
  | node children ih =>
    cases children with
    | nil =>
      rw [toList_text_nil]
      exact fun c hc => isPlain_of_mem (by decide) hc
    | cons t ts =>
      rw [List.forall_mem_cons] at ih
      rw [toList_text_cons]
      intro c hc
      rcases List.mem_cons.mp hc with rfl | hc
      · decide
      rcases List.mem_append.mp hc with hc | hc
      · exact ih.1 c hc
      · exact isPlain_of_mem_tail ih.2 hc

theorem text_ne_empty (t : Tree) : t.text ≠ "" := by
  intro h
  have hnil : t.text.toList = [] := by
    rw [h]
    rfl
  cases t with
  | atom a => exact Atom.toList_text_ne_nil a hnil
  | node children =>
    obtain ⟨cs, hcs⟩ := exists_toList_text_node children
    rw [hcs] at hnil
    contradiction

end Tree

end TaggedWords
