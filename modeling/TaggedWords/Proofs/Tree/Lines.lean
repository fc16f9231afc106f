import TaggedWords.Output.Print
import TaggedWords.Proofs.Tree.Grammar

/-!
# Lines of texts

A text has no line break in it, so texts that are written on lines of their own are told apart, and
each line determines the value that was rendered.  Where the value came from does not matter: words
of different arenas with one text stand for one tree.

* `linesOf`              texts on lines of their own;
* `split_linesOf`        lines are split back into the texts on them;
* `Rendered`, `Unfolded` the texts of words and the trees they stand for, each in an arena;
* `render_unambiguous`   a text determines the value that was rendered.
-/

namespace TaggedWords

/-! ## lines -/

def linesOf (texts : List String) : String := String.join (texts.map lineOf)

theorem toList_linesOf_cons (s : String) (texts : List String) :
    (linesOf (s :: texts)).toList = s.toList ++ '\n' :: (linesOf texts).toList := by
  rw [linesOf, List.map_cons, String.join_cons, String.toList_append, lineOf, String.toList_append,
    List.append_assoc]
  rfl

theorem splitOn_linesOf {texts : List String} (h : ∀ s ∈ texts, '\n' ∉ s.toList) :
    (linesOf texts).toList.splitOn '\n' = texts.map String.toList ++ [[]] := by
  induction texts with
  | nil => rfl
  | cons s texts ih =>
    rw [List.forall_mem_cons] at h
    rw [toList_linesOf_cons, List.splitOn_append_cons_self_of_not_mem h.1, ih h.2, List.map_cons,
      List.cons_append]

theorem split_linesOf {texts : List String} (h : ∀ s ∈ texts, '\n' ∉ s.toList) :
    ((linesOf texts).split '\n').toList.map String.Slice.copy = texts ++ [""] := by
  rw [String.toList_split_char, splitOn_linesOf h, List.map_append, List.map_map]
  have hback : texts.map (String.ofList ∘ String.toList) = texts := by
    simp [Function.comp_def]
  rw [hback]
  rfl

/-! ## renderings -/

/-- Words in arenas are rendered with these texts. -/
def Rendered (words : List (Arena × Word)) (texts : List String) : Prop :=
  List.Forall₂ (fun p s => (p.1.render p.2).run = some (.ok s)) words texts

def Unfolded (words : List (Arena × Word)) (trees : List Tree) : Prop :=
  List.Forall₂ (fun p t => UnfoldsTo p.1.records p.2 t) words trees

theorem Rendered.exists_unfolded {words : List (Arena × Word)} {texts : List String}
    (h : Rendered words texts) : ∃ trees, Unfolded words trees ∧ trees.map Tree.text = texts := by
  induction h with
  | nil => exact ⟨[], .nil, rfl⟩
  | cons hs _ ih =>
    obtain ⟨t, ht, htext⟩ := Arena.run_render_eq_ok.mp hs
    obtain ⟨trees, htrees, htexts⟩ := ih
    refine ⟨t :: trees, .cons ht htrees, ?_⟩
    rw [List.map_cons, htext, htexts]

theorem Rendered.split_linesOf {words : List (Arena × Word)} {texts : List String}
    (h : Rendered words texts) :
    ((linesOf texts).split '\n').toList.map String.Slice.copy = texts ++ [""] := by
  apply TaggedWords.split_linesOf
  intro s hs hline
  obtain ⟨trees, -, rfl⟩ := h.exists_unfolded
  obtain ⟨t, -, rfl⟩ := List.mem_map.mp hs
  exact (t.isPlain_of_mem_text '\n' hline).2 rfl

theorem exists_unfolded_of_linesOf {words words' : List (Arena × Word)}
    {texts texts' : List String} (h : Rendered words texts) (h' : Rendered words' texts')
    (hlines : linesOf texts = linesOf texts') :
    texts = texts' ∧ ∃ trees, Unfolded words trees ∧ Unfolded words' trees := by
  have htexts : texts = texts' := by
    have hsplit := h.split_linesOf
    rw [hlines, h'.split_linesOf] at hsplit
    exact (List.append_cancel_right hsplit).symm
  obtain ⟨trees, htrees, hmap⟩ := h.exists_unfolded
  obtain ⟨trees', htrees', hmap'⟩ := h'.exists_unfolded
  have hsame : trees = trees' := by
    apply List.map_injective_iff.mpr fun t u htu => Tree.text_injective htu
    rw [hmap, hmap', htexts]
  refine ⟨htexts, trees, htrees, ?_⟩
  rw [hsame]
  exact htrees'

/-- **A text determines the value that was rendered**, also on a line among others. -/
theorem render_unambiguous :
    (∀ (u v : Arena) (a b : Word) (s : String),
      (u.render a).run = some (.ok s) → (v.render b).run = some (.ok s) →
      ∃ t, (∀ t', UnfoldsTo u.records a t' ↔ t' = t) ∧
        ∀ t', UnfoldsTo v.records b t' ↔ t' = t) ∧
    (∀ (arena : Arena) (w : Word) (s : String), (arena.render w).run = some (.ok s) →
      s ≠ "" ∧ (∀ c ∈ s.toList, c.toNat < 128 ∧ c ≠ '\n') ∧
        ∃ t, UnfoldsTo arena.records w t ∧ Written t s.toList) ∧
    (∀ words texts, Rendered words texts →
      ((linesOf texts).split '\n').toList.map String.Slice.copy = texts ++ [""]) ∧
    ∀ words words' texts texts', Rendered words texts → Rendered words' texts' →
      linesOf texts = linesOf texts' →
        texts = texts' ∧ ∃ trees, Unfolded words trees ∧ Unfolded words' trees := by
  refine ⟨?_, ?_, fun words texts h => h.split_linesOf, ?_⟩
  · intro u v a b s ha hb
    obtain ⟨t, ht, rfl⟩ := Arena.run_render_eq_ok.mp ha
    obtain ⟨t', ht', htext⟩ := Arena.run_render_eq_ok.mp hb
    rw [Tree.text_injective htext] at ht'
    refine ⟨t, fun x => ⟨fun hx => Arena.unfoldsTo_unique hx ht, ?_⟩,
      fun x => ⟨fun hx => Arena.unfoldsTo_unique hx ht', ?_⟩⟩
    · rintro rfl
      exact ht
    · rintro rfl
      exact ht'
  · intro arena w s hs
    obtain ⟨t, ht, rfl⟩ := Arena.run_render_eq_ok.mp hs
    exact ⟨t.text_ne_empty, t.isPlain_of_mem_text, t, ht, ht.canonical.written⟩
  · intro words words' texts texts' h h' hlines
    exact exists_unfolded_of_linesOf h h' hlines

/-- Two arenas that hold `(1,(5))` in different places. -/
theorem render_unambiguous_nested :
    (∃ t, UnfoldsTo (Arena.records ⟨#[2, 2, 17, 0, 1, 10]⟩) 1 t ∧
      UnfoldsTo (Arena.records ⟨#[1, 10, 2, 2, 1]⟩) 9 t ∧ Written t "(1,(5))".toList) ∧
    ((linesOf ["(1,(5))"]).split '\n').toList.map String.Slice.copy = ["(1,(5))", ""] ∧
    ∃ trees, Unfolded [(⟨#[2, 2, 17, 0, 1, 10]⟩, 1)] trees ∧
      Unfolded [(⟨#[1, 10, 2, 2, 1]⟩, 9)] trees := by
  obtain ⟨hsame, hgrammar, hsplit, hlines⟩ := render_unambiguous
  have hleft : ((⟨#[2, 2, 17, 0, 1, 10]⟩ : Arena).render 1).run = some (.ok "(1,(5))") := by decide
  have hright : ((⟨#[1, 10, 2, 2, 1]⟩ : Arena).render 9).run = some (.ok "(1,(5))") := by decide
  have hwords : Rendered [(⟨#[2, 2, 17, 0, 1, 10]⟩, 1)] ["(1,(5))"] := .cons hleft .nil
  have hwords' : Rendered [(⟨#[1, 10, 2, 2, 1]⟩, 9)] ["(1,(5))"] := .cons hright .nil
  refine ⟨?_, hsplit _ _ hwords, (hlines _ _ _ _ hwords hwords' rfl).2⟩
  obtain ⟨t, hu, hv⟩ := hsame _ _ _ _ _ hleft hright
  obtain ⟨-, -, t', ht', hwritten⟩ := hgrammar _ _ _ hleft
  rw [(hu t').mp ht'] at hwritten
  exact ⟨t, (hu t).mpr rfl, (hv t).mpr rfl, hwritten⟩

end TaggedWords
