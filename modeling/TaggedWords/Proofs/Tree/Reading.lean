import TaggedWords.Proofs.Tree.Basic

/-!
# Texts can be read back

The text of a tree determines the tree, wherever it stands: it ends where a mark follows that does
not belong to it.  So a tuple's text tells how many elements there are and where each begins, and
lines that hold one text each can be told apart.

* `Stops`               what may follow a text: nothing, or a mark;
* `Tree.read_unique`    one text with something behind it is the text of one tree only;
* `Tree.text_injective` different trees have different texts.
-/

namespace TaggedWords

def Stops (rest : List Char) : Prop := ∀ c ∈ rest.head?, isMark c = true

theorem stops_nil : Stops [] := by
  intro c h
  contradiction

theorem stops_cons {c : Char} (h : isMark c = true) (rest : List Char) : Stops (c :: rest) := by
  intro d hd
  cases hd
  exact h

theorem takeWhile_of_stops {cs rest : List Char} (hcs : ∀ c ∈ cs, isMark c = false)
    (hrest : Stops rest) : (cs ++ rest).takeWhile (fun c => !isMark c) = cs := by
  have hnone : rest.takeWhile (fun c => !isMark c) = [] := by
    cases rest with
    | nil => rfl
    | cons c rest =>
      refine List.takeWhile_cons_of_neg ?_
      rw [hrest c rfl]
      decide
  rw [List.takeWhile_append_of_pos (fun c hc => by rw [hcs c hc]; rfl), hnone, List.append_nil]

/-- A run of characters without marks is known from the whole, if it ends there or at a mark. -/
theorem append_inj_of_stops {cs ds r s : List Char} (hcs : ∀ c ∈ cs, isMark c = false)
    (hds : ∀ c ∈ ds, isMark c = false) (hr : Stops r) (hs : Stops s) (h : cs ++ r = ds ++ s) :
    cs = ds ∧ r = s := by
  have heq : cs = ds := by
    rw [← takeWhile_of_stops hcs hr, h, takeWhile_of_stops hds hs]
  subst heq
  exact ⟨rfl, List.append_cancel_left h⟩

namespace Tree

/-- The other elements, each behind a comma, and the closing parenthesis. -/
def tail : List Tree → List Char
  | [] => [')']
  | t :: ts => ',' :: (t.text.toList ++ tail ts)

theorem stops_tail (ts : List Tree) (rest : List Char) : Stops (tail ts ++ rest) := by
  cases ts with
  | nil => exact stops_cons rfl rest
  | cons t ts => exact stops_cons rfl _

theorem toList_intercalate_cons (t : Tree) (ts : List Tree) :
    (",".intercalate ((t :: ts).map text) ++ ")").toList = t.text.toList ++ tail ts := by
  induction ts generalizing t with
  | nil => simp [tail]
  | cons u ts ih =>
    have ih' := ih u
    rw [List.map_cons] at ih'
    rw [List.map_cons, List.map_cons, String.intercalate_cons_cons, String.append_assoc,
      String.toList_append, ih', tail]
    simp

theorem toList_text_nil : (text (.node [])).toList = ['(', ')'] := by
  rw [text_node]
  rfl

theorem toList_text_cons (t : Tree) (ts : List Tree) :
    (text (.node (t :: ts))).toList = '(' :: (t.text.toList ++ tail ts) := by
  rw [text_node, tupleText, String.append_assoc, String.toList_append, toList_intercalate_cons]
  rfl

theorem exists_toList_text_node (children : List Tree) :
    ∃ cs, (text (.node children)).toList = '(' :: cs := by
  cases children with
  | nil => exact ⟨[')'], toList_text_nil⟩
  | cons t ts => exact ⟨_, toList_text_cons t ts⟩

theorem exists_toList_text_atom (a : Atom) :
    ∃ c cs, (text (.atom a)).toList = c :: cs ∧ isMark c = false := by
  cases h : (text (.atom a)).toList with
  | nil => exact absurd h (Atom.toList_text_ne_nil a)
  | cons c cs =>
    refine ⟨c, cs, rfl, Atom.isMark_of_mem_text (a := a) ?_⟩
    rw [text_atom] at h
    rw [h]
    exact List.mem_cons_self

/-- Wherever the text of the tree stands, no other tree has its text there. -/
def Readable (t : Tree) : Prop :=
  ∀ u r s, Stops r → Stops s → t.text.toList ++ r = u.text.toList ++ s → t = u ∧ r = s

theorem readable_atom (a : Atom) : Readable (.atom a) := by
  intro u r s hr hs h
  cases u with
  | atom b =>
    have hmark : ∀ {a : Atom}, ∀ c ∈ a.text.toList, isMark c = false :=
      fun c hc => Atom.isMark_of_mem_text hc
    obtain ⟨htext, hrest⟩ := append_inj_of_stops hmark hmark hr hs h
    rw [Atom.text_injective (String.toList_injective htext)]
    exact ⟨rfl, hrest⟩
  | node us =>
    obtain ⟨c, cs, hc, hmark⟩ := exists_toList_text_atom a
    obtain ⟨ds, hds⟩ := exists_toList_text_node us
    rw [hc, hds] at h
    injection h with hhead _
    rw [hhead] at hmark
    contradiction

theorem head_unique {t u : Tree} {ts us : List Tree} {r s : List Char} (ht : Readable t)
    (h : t.text.toList ++ tail ts ++ r = u.text.toList ++ tail us ++ s) :
    t = u ∧ tail ts ++ r = tail us ++ s := by
  rw [List.append_assoc, List.append_assoc] at h
  exact ht u _ _ (stops_tail ts r) (stops_tail us s) h

theorem tail_unique {ts : List Tree} (hread : ∀ t ∈ ts, Readable t) :
    ∀ us r s, tail ts ++ r = tail us ++ s → ts = us ∧ r = s := by
  induction ts with
  | nil =>
    intro us r s h
    cases us with
    | nil =>
      injection h with _ h
      exact ⟨rfl, h⟩
    | cons u us =>
      injection h with h _
      exact absurd h (by decide)
  | cons t ts ih =>
    intro us r s h
    cases us with
    | nil =>
      injection h with h _
      exact absurd h (by decide)
    | cons u us =>
      injection h with _ h
      obtain ⟨rfl, hrest⟩ := head_unique (hread t List.mem_cons_self) h
      obtain ⟨rfl, rfl⟩ := ih (fun x hx => hread x (List.mem_cons_of_mem t hx)) us r s hrest
      exact ⟨rfl, rfl⟩

theorem head_text_ne_close (t : Tree) (r s cs : List Char) :
    t.text.toList ++ r ++ s ≠ ')' :: cs := by
  intro h
  cases t with
  | atom a =>
    obtain ⟨c, ds, hc, hmark⟩ := exists_toList_text_atom a
    rw [hc] at h
    injection h with h _
    rw [h] at hmark
    contradiction
  | node children =>
    obtain ⟨ds, hds⟩ := exists_toList_text_node children
    rw [hds] at h
    injection h with h _
    exact absurd h (by decide)

theorem readable_node {ts : List Tree} (hread : ∀ t ∈ ts, Readable t) : Readable (.node ts) := by
  intro u r s hr hs h
  cases u with
  | atom b =>
    obtain ⟨h', hrest⟩ := readable_atom b (.node ts) s r hs hr h.symm
    exact ⟨h'.symm, hrest.symm⟩
  | node us =>
    match ts, us with
    | [], [] =>
      rw [toList_text_nil] at h
      exact ⟨rfl, List.append_cancel_left h⟩
    | [], u :: us =>
      rw [toList_text_nil, toList_text_cons] at h
      injection h with _ h
      exact absurd h.symm (head_text_ne_close u _ _ _)
    | t :: ts, [] =>
      rw [toList_text_nil, toList_text_cons] at h
      injection h with _ h
      exact absurd h (head_text_ne_close t _ _ _)
    | t :: ts, u :: us =>
      rw [toList_text_cons, toList_text_cons] at h
      injection h with _ h
      obtain ⟨rfl, hrest⟩ := head_unique (hread t List.mem_cons_self) h
      obtain ⟨rfl, rfl⟩ :=
        tail_unique (fun x hx => hread x (List.mem_cons_of_mem t hx)) us r s hrest
      exact ⟨rfl, rfl⟩

/-- **A text is the text of one tree only**, whatever stands behind it. -/
theorem read_unique (t : Tree) : Readable t := by
  induction t with
  | atom a => exact readable_atom a
  | node children ih => exact readable_node ih

theorem text_injective {t u : Tree} (h : t.text = u.text) : t = u := by
  have hlists : t.text.toList ++ [] = u.text.toList ++ [] := by rw [h]
  exact (read_unique t u [] [] stops_nil stops_nil hlists).1

end Tree

end TaggedWords
