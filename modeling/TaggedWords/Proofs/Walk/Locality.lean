import TaggedWords.Proofs.Walk.Reach
import TaggedWords.Proofs.Walk.RenderLoop
import TaggedWords.Proofs.Walk.Sides

/-!
# What a walk depends on

A walk looks at an arena through the records that it looks up, and it looks up no others than its
words reach.  So a walk that succeeds does so in the same way over every arena that holds the words
of these records at their places: over one that is larger, and over one with other words
overwritten.

References that dangle are not among the records that have to be held.  A comparison may succeed
without looking them up, and then it does not matter what they refer to elsewhere.

* `Arena.InRecord`       the words of a record inside the arena, its count included;
* `Arena.AgreesOn`, `Arena.AgreesBelow`   another arena holds a record, or all that a word reaches;
* `AgreesBelow.layer`, `AgreesBelow.compare`   one step of a walk over such an arena;
* `run_renderWithin_of_agreesBelow`, `run_equalWithin_of_agreesBelow`   a walk of such steps;
* `walks_depend_on_reached_records`   all walks, and the arenas that agree.
-/

namespace TaggedWords

namespace Arena

variable {arena u v : Arena} {a b w x : Word} {r : Reference} {elements : List Word} {i n : Nat}

/-! ## the words of a record -/

/-- The index of the count or of an element of the record at `r`, which lies inside the arena. -/
def InRecord (arena : Arena) (r : Reference) (i : Nat) : Prop :=
  ∃ elements, arena.record r = .ok elements ∧ r.index ≤ i ∧ i ≤ r.index + elements.length

theorem inRecord_iff_of_record (found : arena.record r = .ok elements) :
    arena.InRecord r i ↔ r.index ≤ i ∧ i ≤ r.index + elements.length := by
  refine ⟨fun ⟨elements', found', h⟩ => ?_, fun h => ⟨elements, found, h⟩⟩
  cases found.symm.trans found'
  exact h

theorem InRecord.lt_size (h : arena.InRecord r i) : i < arena.size := by
  obtain ⟨elements, found, -, hle⟩ := h
  have hsize := le_size_of_record found
  omega

/-- The arena `v` holds the words of the record at `r` that `u` holds there, if `u` does. -/
def AgreesOn (u v : Arena) (r : Reference) : Prop :=
  ∀ i, u.InRecord r i → v.words[i]? = u.words[i]?

theorem AgreesOn.record (h : u.AgreesOn v r) (found : u.record r = .ok elements) :
    v.record r = .ok elements := by
  obtain ⟨count, hcount, hlength, helements⟩ := record_eq_ok_iff.mp found
  refine record_eq_ok_iff.mpr ⟨count, ?_, hlength, fun i hi => ?_⟩
  · rw [h r.index ((inRecord_iff_of_record found).mpr (by omega)), hcount]
  · rw [h (r.index + 1 + i) ((inRecord_iff_of_record found).mpr (by omega)), helements i hi]

/-! ## the records that a word reaches -/

/-- The arena `v` holds the words of all records that `w` reaches in `u`. -/
def AgreesBelow (u v : Arena) (w : Word) : Prop := ∀ r, u.Reaches w r → u.AgreesOn v r

theorem AgreesBelow.record (h : u.AgreesBelow v w) (value : Value.decode w = .tuple r)
    (found : u.record r = .ok elements) : v.record r = .ok elements :=
  (h r (reaches_of_decode value)).record found

theorem AgreesBelow.element (h : u.AgreesBelow v w) (value : Value.decode w = .tuple r)
    (found : u.record r = .ok elements) (hx : x ∈ elements) : u.AgreesBelow v x :=
  fun s hs => h s (hs.of_element value found hx)

/-! ## steps and walks -/

theorem AgreesBelow.layer {layer : Layer} (h : u.AgreesBelow v w) (hl : u.layer w = .ok layer) :
    v.layer w = .ok layer := by
  have hlayered := u.layered w
  rw [hl] at hlayered
  cases hlayered with
  | atom value => exact layer_of_atom value
  | tuple value found => exact layer_of_record value (h.record value found)

theorem AgreesBelow.compare {comparison : Comparison} (ha : u.AgreesBelow v a)
    (hb : u.AgreesBelow v b) (hc : u.compare a b = .ok comparison) :
    v.compare a b = .ok comparison := by
  have hcompared := u.compared a b
  rw [hc] at hcompared
  cases hcompared with
  | identical same =>
    rw [same]
    exact compare_self v b
  | atomLeft ne left =>
    rw [Arena.compare, if_neg ne, left]
  | atomRight ne left right =>
    rw [Arena.compare, if_neg ne, left, right]
  | @lengths r s xs ys ne left right foundLeft foundRight length =>
    have hleft := layer_of_record left (ha.record left foundLeft)
    have hright := layer_of_record right (hb.record right foundRight)
    rw [compare_of_tuple_left ne hleft, hright]
    show Except.ok (compareRecords xs ys) = _
    rw [compareRecords, if_neg length]
  | @elements r s xs ys ne left right foundLeft foundRight length =>
    have hleft := layer_of_record left (ha.record left foundLeft)
    have hright := layer_of_record right (hb.record right foundRight)
    rw [compare_of_tuple_left ne hleft, hright]
    show Except.ok (compareRecords xs ys) = _
    rw [compareRecords, if_pos length]

theorem run_renderWithin_of_agreesBelow {text : String} (h : u.AgreesBelow v w)
    (hu : (u.renderWithin n w).run = some (.ok text)) :
    (v.renderWithin n w).run = some (.ok text) := by
  induction n generalizing w text with
  | zero => contradiction
  | succ n ih =>
    generalize hl : u.layer w = layer at *
    have hlayered := u.layered w
    rw [hl] at hlayered
    cases hlayered with
    | atom value => rwa [run_renderWithin_of_atom (h.layer hl), ← run_renderWithin_of_atom hl]
    | dangling =>
      rw [run_renderWithin_of_error hl] at hu
      cases hu
    | tuple value found =>
      rw [renderWithin_of_tuple hl] at hu
      rw [renderWithin_of_tuple (h.layer hl)]
      obtain ⟨texts, htexts, htext⟩ := Walk.run_map_eq_ok.mp hu
      refine Walk.run_map_eq_ok.mpr ⟨texts, Walk.run_mapM_of_ok (fun x hx y hy => ?_) htexts, htext⟩
      exact ih (h.element value found hx) hy

theorem run_equalWithin_of_agreesBelow {r : Bool} (ha : u.AgreesBelow v a)
    (hb : u.AgreesBelow v b) (hu : (u.equalWithin n a b).run = some (.ok r)) :
    (v.equalWithin n a b).run = some (.ok r) := by
  induction n generalizing a b r with
  | zero => contradiction
  | succ n ih =>
    generalize hc : u.compare a b = comparison at *
    have hcompared := u.compared a b
    rw [hc] at hcompared
    cases hcompared with
    | identical =>
      rwa [run_equalWithin_of_same (ha.compare hb hc), ← run_equalWithin_of_same hc]
    | atomLeft | atomRight | lengths =>
      rwa [run_equalWithin_of_different (ha.compare hb hc), ← run_equalWithin_of_different hc]
    | danglingLeft | danglingRight =>
      rw [run_equalWithin_of_error hc] at hu
      cases hu
    | elements ne left right foundLeft foundRight length =>
      rw [equalWithin_of_elementwise hc] at hu
      rw [equalWithin_of_elementwise (ha.compare hb hc)]
      refine Walk.run_allM_of_ok (fun p hp s hs => ?_) hu
      obtain ⟨hx, hy⟩ := List.of_mem_zip hp
      exact ih (ha.element left foundLeft hx) (hb.element right foundRight hy) hs

theorem AgreesBelow.rendersTo {text : String} (h : u.AgreesBelow v w)
    (hu : u.RenderEndsWith w (.ok text)) : v.RendersTo w (.ok text) := by
  obtain ⟨depth, hdepth⟩ := hu
  exact rendersTo_of_renderEndsWith ⟨depth, run_renderWithin_of_agreesBelow h hdepth⟩

theorem AgreesBelow.comparesTo {r : Word} (ha : u.AgreesBelow v a) (hb : u.AgreesBelow v b)
    (hu : u.EqualEndsWith a b (.ok r)) : v.ComparesTo a b (.ok r) := by
  obtain ⟨depth, s, hs, hword⟩ := equalEndsWith_ok_iff.mp hu
  exact comparesTo_of_equalEndsWith
    (equalEndsWith_ok_iff.mpr ⟨depth, s, run_equalWithin_of_agreesBelow ha hb hs, hword⟩)

/-! ## larger arenas and overwritten words -/

def enlarge (arena : Arena) (more : Array Word) : Arena := ⟨arena.words ++ more⟩

def overwrite (arena : Arena) (writes : List (Nat × List Word)) : Arena :=
  writes.foldl (fun arena p => arena.write p.1 p.2) arena

/-- The writes touch no word of the records that `w` reaches. -/
def SparesBelow (arena : Arena) (writes : List (Nat × List Word)) (w : Word) : Prop :=
  ∀ r, arena.Reaches w r → ∀ i, arena.InRecord r i →
    ∀ p ∈ writes, ¬ (p.1 ≤ i ∧ i < p.1 + p.2.length)

theorem agreesOn_enlarge (more : Array Word) (r : Reference) :
    arena.AgreesOn (arena.enlarge more) r := by
  intro i hi
  exact Array.getElem?_append_left hi.lt_size

theorem getElem?_overwrite {writes : List (Nat × List Word)}
    (h : ∀ p ∈ writes, ¬ (p.1 ≤ i ∧ i < p.1 + p.2.length)) :
    (arena.overwrite writes).words[i]? = arena.words[i]? := by
  induction writes generalizing arena with
  | nil => rfl
  | cons p writes ih =>
    rw [List.forall_mem_cons] at h
    show ((arena.write p.1 p.2).overwrite writes).words[i]? = _
    rw [ih h.2, getElem?_write, if_neg fun hin => h.1 ⟨hin.1, hin.2.1⟩]

theorem SparesBelow.agreesBelow {writes : List (Nat × List Word)} (h : arena.SparesBelow writes w) :
    arena.AgreesBelow (arena.overwrite writes) w :=
  fun r hr i hi => getElem?_overwrite (h r hr i hi)

/-- **A walk that succeeds depends on the records that its words reach, and on nothing else.**  So
the arena may be enlarged, and words overwritten that belong to none of these records. -/
theorem walks_depend_on_reached_records (u : Arena) (w a b : Word) :
    (∀ v text, u.AgreesBelow v w → u.RenderEndsWith w (.ok text) → v.RendersTo w (.ok text)) ∧
    (∀ v r, u.AgreesBelow v a → u.AgreesBelow v b → u.EqualEndsWith a b (.ok r) →
      v.ComparesTo a b (.ok r)) ∧
    (∀ more,
      (∀ text, u.RenderEndsWith w (.ok text) → (u.enlarge more).RendersTo w (.ok text)) ∧
      (∀ r, u.EqualEndsWith a b (.ok r) → (u.enlarge more).ComparesTo a b (.ok r))) ∧
    (∀ writes,
      (∀ text, u.SparesBelow writes w → u.RenderEndsWith w (.ok text) →
        (u.overwrite writes).RendersTo w (.ok text)) ∧
      (∀ r, u.SparesBelow writes a → u.SparesBelow writes b → u.EqualEndsWith a b (.ok r) →
        (u.overwrite writes).ComparesTo a b (.ok r))) := by
  have henlarge : ∀ more x, u.AgreesBelow (u.enlarge more) x :=
    fun more x r _ => agreesOn_enlarge more r
  refine ⟨fun v text h hu => h.rendersTo hu, fun v r ha hb hu => ha.comparesTo hb hu,
    fun more => ⟨fun text hu => ?_, fun r hu => ?_⟩,
    fun writes => ⟨fun text h hu => ?_, fun r ha hb hu => ?_⟩⟩
  · exact (henlarge more w).rendersTo hu
  · exact (henlarge more a).comparesTo (henlarge more b) hu
  · exact h.agreesBelow.rendersTo hu
  · exact ha.agreesBelow.comparesTo hb.agreesBelow hu

/-- The tuples hold a reference that dangles, which refers to a record in the other arena.  They
differ before it. -/
theorem walks_depend_on_reached_records_dangling :
    (⟨#[2, 2, 65, 0, 2, 4, 65, 0, 1, 6]⟩ : Arena).record ⟨64, rfl⟩ =
      .error (.outOfBounds 64 10) ∧
    (⟨#[2, 2, 65, 0, 2, 4, 65, 9, 1, 6, 0, 0, 0, 0, 0, 0, 1, 2]⟩ : Arena).ComparesTo 1 17
      (.ok falseWord) ∧
    (⟨#[2, 2, 65, 0, 2, 4, 65, 9, 1, 6, 0, 0, 0, 0, 0, 0, 1, 2]⟩ : Arena).RendersTo 33
      (.ok "(3)") ∧
    ((⟨#[2, 2, 65, 0, 2, 4, 65, 0, 1, 6]⟩ : Arena).overwrite [(7, [9])]).RendersTo 33
      (.ok "(3)") := by
  generalize hu : (⟨#[2, 2, 65, 0, 2, 4, 65, 0, 1, 6]⟩ : Arena) = u
  generalize hv : (⟨#[2, 2, 65, 0, 2, 4, 65, 9, 1, 6, 0, 0, 0, 0, 0, 0, 1, 2]⟩ : Arena) = v
  have hleft : u.record ⟨0, rfl⟩ = .ok [2, 65] := by subst hu; decide
  have hright : u.record ⟨16, rfl⟩ = .ok [4, 65] := by subst hu; decide
  have hthird : u.record ⟨32, rfl⟩ = .ok [6] := by subst hu; decide
  have hdangling : u.record ⟨64, rfl⟩ = .error (.outOfBounds 64 10) := by subst hu; decide
  have hdiffer : u.EqualEndsWith 1 17 (.ok falseWord) := by subst hu; exact ⟨2, by decide⟩
  have hrenders : u.RenderEndsWith 33 (.ok "(3)") := by subst hu; exact ⟨2, by decide +kernel⟩
  have hwords : ∀ i < u.size, i ≠ 7 → v.words[i]? = u.words[i]? := by subst hu hv; decide
  -- what the three words reach
  have hatoms : ∀ s, ¬ u.Reaches 2 s ∧ ¬ u.Reaches 4 s ∧ ¬ u.Reaches 6 s := fun s =>
    ⟨not_reaches_of_atom (c := .int 1) (by decide), not_reaches_of_atom (c := .int 2) (by decide),
      not_reaches_of_atom (c := .int 3) (by decide)⟩
  have hreach65 : ∀ s, u.Reaches 65 s ↔ s = ⟨64, rfl⟩ :=
    fun s => reaches_iff_of_dangling (by decide) hdangling
  have hreach1 : ∀ s, u.Reaches 1 s ↔ s = ⟨0, rfl⟩ ∨ s = ⟨64, rfl⟩ := by
    intro s
    rw [reaches_iff_of_record (by decide) hleft]
    simp [hatoms, hreach65]
  have hreach17 : ∀ s, u.Reaches 17 s ↔ s = ⟨16, rfl⟩ ∨ s = ⟨64, rfl⟩ := by
    intro s
    rw [reaches_iff_of_record (by decide) hright]
    simp [hatoms, hreach65]
  have hreach33 : ∀ s, u.Reaches 33 s ↔ s = ⟨32, rfl⟩ := by
    intro s
    rw [reaches_iff_of_record (by decide) hthird]
    simp [hatoms]
  have hclear : ∀ s, s = ⟨0, rfl⟩ ∨ s = ⟨16, rfl⟩ ∨ s = ⟨32, rfl⟩ ∨ s = ⟨64, rfl⟩ →
      ∀ i, u.InRecord s i → i ≠ 7 := by
    rintro s (rfl | rfl | rfl | rfl) i hi
    · have hle : i ≤ 0 + 2 := ((inRecord_iff_of_record hleft).mp hi).2
      omega
    · have hle : i ≤ 4 + 2 := ((inRecord_iff_of_record hright).mp hi).2
      omega
    · have hle : 8 ≤ i := ((inRecord_iff_of_record hthird).mp hi).1
      omega
    · obtain ⟨elements, found, -⟩ := hi
      cases hdangling.symm.trans found
  have hagrees : ∀ s, s = ⟨0, rfl⟩ ∨ s = ⟨16, rfl⟩ ∨ s = ⟨32, rfl⟩ ∨ s = ⟨64, rfl⟩ →
      u.AgreesOn v s :=
    fun s hs i hi => hwords i hi.lt_size (hclear s hs i hi)
  have hspares : u.SparesBelow [(7, [9])] 33 := by
    intro s hs i hi p hp
    cases List.mem_singleton.mp hp
    have hne := hclear s (by simp [(hreach33 s).mp hs]) i hi
    show ¬ (7 ≤ i ∧ i < 7 + 1)
    omega
  obtain ⟨hrender, hcompare, -, hoverwrite⟩ := walks_depend_on_reached_records u 33 1 17
  refine ⟨hdangling, hcompare v falseWord ?_ ?_ hdiffer, hrender v "(3)" ?_ hrenders,
    (hoverwrite _).1 "(3)" hspares hrenders⟩
  · intro s hs
    exact hagrees s (by rcases (hreach1 s).mp hs with h | h <;> simp [h])
  · intro s hs
    exact hagrees s (by rcases (hreach17 s).mp hs with h | h <;> simp [h])
  · intro s hs
    exact hagrees s (by simp [(hreach33 s).mp hs])

end Arena

end TaggedWords
