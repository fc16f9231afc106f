import TaggedWords.Proofs.Walk.Preorder
import TaggedWords.Proofs.Walk.Reach
import TaggedWords.Proofs.Walk.RenderLoop

/-!
# The first dangling reference

Rendering goes through the whole unfolding of a word, each tuple before its elements and these from
left to right.  So it can be stopped by one thing only, a reference whose record does not lie wholly
inside the arena, and the first of them in pre-order stops it.

* `Arena.DanglingAt`          a reference at a path whose record does not lie inside the arena;
* `Arena.FirstDangling`       the first of them in pre-order;
* `WordAt.exists_rendered`    where a word is rendered, so is all of its unfolding;
* `exists_firstDangling_of_error`   rendering breaks off at the first dangling reference;
* `Arena.StopsAtDangling`     a way of rendering is stopped by dangling references only;
* `render_stops_at_dangling`  so is each way of rendering a word, if it ends.
-/

namespace TaggedWords

namespace Arena

variable {arena : Arena} {w x : Word} {r s : Reference} {path path' : List Nat} {n : Nat}
  {text : String} {e : ArenaError}

/-! ## dangling references -/

/-- The word at the path refers to the record at `r`, which does not lie wholly inside the arena. -/
def DanglingAt (arena : Arena) (w : Word) (path : List Nat) (r : Reference) : Prop :=
  ∃ x, arena.WordAt w path x ∧ Value.decode x = .tuple r ∧ ¬ arena.LiesInside r

/-- The reference at the path is dangling, and none at a path before is. -/
structure FirstDangling (arena : Arena) (w : Word) (path : List Nat) (r : Reference) : Prop where
  danglingAt : arena.DanglingAt w path r
  first : ∀ path' s, arena.DanglingAt w path' s → ¬ Path.Before path' path

theorem DanglingAt.unique (h : arena.DanglingAt w path r) (h' : arena.DanglingAt w path s) :
    r = s := by
  obtain ⟨x, hat, hr, -⟩ := h
  obtain ⟨y, hat', hs, -⟩ := h'
  rw [hat.unique hat', hs] at hr
  injection hr with hr
  exact hr.symm

theorem FirstDangling.unique (h : arena.FirstDangling w path r)
    (h' : arena.FirstDangling w path' s) : r = s := by
  obtain rfl := Path.eq_of_not_before (h'.first path r h.danglingAt) (h.first path' s h'.danglingAt)
  exact h.danglingAt.unique h'.danglingAt

theorem firstDangling_here (value : Value.decode w = .tuple r)
    (missing : arena.record r = .error e) : arena.FirstDangling w [] r :=
  ⟨⟨w, .here w, value, not_liesInside_of_error missing⟩, fun _ _ _ hbefore => nomatch hbefore⟩

/-- The first dangling reference of an element is the first one of its tuple, if there is none in
the elements to its left. -/
theorem FirstDangling.of_element {before later : List Word} (h : arena.FirstDangling x path r)
    (value : Value.decode w = .tuple s) (found : arena.record s = .ok (before ++ x :: later))
    (hbefore : ∀ y ∈ before, ∀ path r, ¬ arena.DanglingAt y path r) :
    arena.FirstDangling w (before.length :: path) r := by
  have hget := getElem?_length_of_split before x later
  obtain ⟨y, hat, hy, hmissing⟩ := h.danglingAt
  refine ⟨⟨y, .element value found hget hat, hy, hmissing⟩, ?_⟩
  rintro path' r' ⟨z, hat', hz, hmissing'⟩ hpath
  cases hpath with
  | nil =>
    -- the tuple itself does not dangle
    cases hat'
    cases value.symm.trans hz
    exact hmissing' (liesInside_iff.mpr ⟨_, found⟩)
  | @rel i path' _ _ hlt =>
    obtain ⟨u, hu, hinside⟩ := hat'.exists_element (layer_of_record value found)
    rw [List.getElem?_append_left hlt] at hu
    exact hbefore u (List.mem_of_getElem? hu) path' r' ⟨z, hinside, hz, hmissing'⟩
  | cons hrest =>
    obtain ⟨u, hu, hinside⟩ := hat'.exists_element (layer_of_record value found)
    cases hget.symm.trans hu
    exact h.first _ r' ⟨z, hinside, hz, hmissing'⟩ hrest

/-! ## renderings under a bound -/

theorem WordAt.exists_rendered (hat : arena.WordAt w path x)
    (h : (arena.renderWithin n w).run = some (.ok text)) :
    ∃ n text, (arena.renderWithin n x).run = some (.ok text) := by
  induction hat generalizing n text with
  | here w => exact ⟨n, text, h⟩
  | element value found element _ ih =>
    obtain _ | n := n
    · contradiction
    rw [renderWithin_of_tuple (layer_of_record value found)] at h
    obtain ⟨texts, htexts, -⟩ := Walk.run_map_eq_ok.mp h
    obtain ⟨t, ht⟩ := Walk.exists_of_run_mapM htexts _ (List.mem_of_getElem? element)
    exact ih ht

theorem not_danglingAt_of_rendered (h : (arena.renderWithin n w).run = some (.ok text)) :
    ¬ arena.DanglingAt w path r := by
  rintro ⟨x, hat, value, hmissing⟩
  obtain ⟨e, missing⟩ := exists_error_of_not_liesInside hmissing
  obtain ⟨m, t, ht⟩ := hat.exists_rendered h
  obtain _ | m := m
  · contradiction
  rw [run_renderWithin_of_error (layer_of_dangling value missing)] at ht
  cases ht

/-- **A rendering that breaks off does so at the first dangling reference.** -/
theorem exists_firstDangling_of_error (h : (arena.renderWithin n w).run = some (.error e)) :
    ∃ path r, arena.FirstDangling w path r ∧ e = .outOfBounds r.offset arena.size := by
  induction n generalizing w with
  | zero => contradiction
  | succ n ih =>
    generalize hl : arena.layer w = layer
    have hlayered := arena.layered w
    rw [hl] at hlayered
    cases hlayered with
    | atom =>
      rw [run_renderWithin_of_atom hl] at h
      cases h
    | @dangling r _ value missing =>
      rw [run_renderWithin_of_error hl] at h
      cases h
      exact ⟨[], r, firstDangling_here value missing, record_eq_error missing⟩
    | @tuple r elements value found =>
      rw [renderWithin_of_tuple hl, Walk.run_map] at h
      obtain ⟨outcome, houtcome, herror⟩ := Option.map_eq_some_iff.mp h
      cases outcome with
      | ok texts => contradiction
      | error e' =>
        cases herror
        obtain ⟨before, x, later, rfl, hbefore, hx⟩ := Walk.exists_split_of_run_mapM houtcome
        obtain ⟨path, s, hfirst, he⟩ := ih hx
        refine ⟨before.length :: path, s, hfirst.of_element value found fun y hy _ _ => ?_, he⟩
        obtain ⟨t, ht⟩ := hbefore y hy
        exact not_danglingAt_of_rendered ht

/-! ## renderings that end -/

/-- A way of rendering a word, of which `ends` tells how it ends, is stopped by the first dangling
reference and by nothing else. -/
structure StopsAtDangling (arena : Arena) (w : Word) (ends : Except ArenaError String → Prop) :
    Prop where
  exists_outcome : ∃ outcome, ends outcome
  succeeds : (∃ text, ends (.ok text)) ↔ ∀ r, arena.Reaches w r → arena.LiesInside r
  fails : ∀ e, ends (.error e) ↔
    ∃ path r, arena.FirstDangling w path r ∧ e = .outOfBounds r.offset arena.size

theorem StopsAtDangling.congr {p q : Except ArenaError String → Prop}
    (hp : arena.StopsAtDangling w p) (h : ∀ outcome, p outcome ↔ q outcome) :
    arena.StopsAtDangling w q := by
  have hpq : p = q := by
    funext outcome
    exact propext (h outcome)
  exact hpq ▸ hp

theorem FirstDangling.not_forall_liesInside (h : arena.FirstDangling w path r) :
    ¬ ∀ r, arena.Reaches w r → arena.LiesInside r := by
  obtain ⟨x, hat, value, hmissing⟩ := h.danglingAt
  exact fun hall => hmissing (hall r ⟨path, x, hat, value⟩)

theorem liesInside_of_rendered (h : arena.RenderEndsWith w (.ok text)) (hr : arena.Reaches w r) :
    arena.LiesInside r := by
  obtain ⟨n, hn⟩ := h
  obtain ⟨path, x, hat, value⟩ := hr
  by_contra hmissing
  exact not_danglingAt_of_rendered hn ⟨x, hat, value, hmissing⟩

theorem stopsAtDangling_renderEndsWith (h : ∃ outcome, arena.RenderEndsWith w outcome) :
    arena.StopsAtDangling w (arena.RenderEndsWith w) := by
  have herror : ∀ e, arena.RenderEndsWith w (.error e) →
      ∃ path r, arena.FirstDangling w path r ∧ e = .outOfBounds r.offset arena.size :=
    fun e ⟨n, hn⟩ => exists_firstDangling_of_error hn
  obtain ⟨outcome, houtcome⟩ := h
  refine ⟨⟨outcome, houtcome⟩, ?_, fun e => ⟨herror e, ?_⟩⟩
  · constructor
    · rintro ⟨text, htext⟩ r hr
      exact liesInside_of_rendered htext hr
    · intro hall
      cases outcome with
      | ok text => exact ⟨text, houtcome⟩
      | error e =>
        obtain ⟨path, r, hfirst, -⟩ := herror e houtcome
        exact absurd hall hfirst.not_forall_liesInside
  · rintro ⟨path, r, hfirst, rfl⟩
    cases outcome with
    | ok text =>
      exact absurd (fun r hr => liesInside_of_rendered houtcome hr) hfirst.not_forall_liesInside
    | error e =>
      obtain ⟨path', r', hfirst', rfl⟩ := herror e houtcome
      rw [hfirst.unique hfirst']
      exact houtcome

/-- **A rendering that ends is stopped by dangling references, and by nothing else**: the first one
in pre-order is reported. -/
theorem render_stops_at_dangling (h : ∃ outcome, arena.RenderEndsWith w outcome) :
    arena.StopsAtDangling w (arena.RenderEndsWith w) ∧
    arena.StopsAtDangling w (Loop.EndsWith arena.renderRound ("", [.word w])) ∧
    arena.StopsAtDangling w (fun outcome => (arena.render w).run = some outcome) ∧
    arena.StopsAtDangling w (fun outcome => (arena.renderByStack w).run = some outcome) := by
  have hstops := stopsAtDangling_renderEndsWith h
  refine ⟨hstops, hstops.congr ?_, hstops.congr ?_, hstops.congr ?_⟩
  · exact fun _ => endsWith_renderRound_iff
  · exact fun _ => render_run_eq_some_iff.symm
  · exact fun _ => endsWith_renderRound_iff.trans run_renderByStack_eq_some_iff.symm

/-- Of two dangling references the deeper one comes first. -/
theorem render_stops_at_dangling_deeper :
    (¬ ∀ r, (⟨#[3, 3, 17, 801, 1, 809]⟩ : Arena).Reaches 1 r →
      (⟨#[3, 3, 17, 801, 1, 809]⟩ : Arena).LiesInside r) ∧
    ∃ path r, (⟨#[3, 3, 17, 801, 1, 809]⟩ : Arena).FirstDangling 1 path r ∧ r.offset = 808 := by
  have hends : (⟨#[3, 3, 17, 801, 1, 809]⟩ : Arena).RenderEndsWith 1
      (.error (.outOfBounds 808 6)) := ⟨3, by decide⟩
  obtain ⟨hstops, -⟩ := render_stops_at_dangling ⟨_, hends⟩
  obtain ⟨path, r, hfirst, herror⟩ := (hstops.fails _).mp hends
  injection herror with hoffset
  exact ⟨hfirst.not_forall_liesInside, path, r, hfirst, hoffset.symm⟩

end Arena

end TaggedWords
