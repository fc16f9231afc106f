import TaggedWords.Options.Parse

/-!
# Accepted command lines

A size is looked at when its setting is made, and the default is no size that the arena refuses.  So
the options of a command line that is accepted name a size that every arena may have.

* `Given.Sound`              the sizes among the settings pass the check of the arena;
* `sound_of_accept`          a setting that is made keeps them so;
* `checkSize_of_complete`    so the options that result have such a size;
* `checkSize_of_request`     and so have those of an accepted command line.
-/

namespace TaggedWords

theorem exists_of_bind_eq_ok {ε α β : Type} {x : Except ε α} {f : α → Except ε β} {b : β}
    (h : x >>= f = .ok b) : ∃ a, x = .ok a ∧ f a = .ok b := by
  cases x with
  | error e => contradiction
  | ok a => exact ⟨a, rfl, h⟩

def Entry.Sound (entry : Entry) : Prop :=
  ∀ words, entry.words? = some words → Arena.checkSize words = .ok ()

theorem Entry.sound_of_read {s : Setting} {value : String} {entry : Entry}
    (h : Entry.read s value = .ok entry) : entry.Sound := by
  intro words hwords
  cases s with
  | log =>
    cases h
    contradiction
  | heapWords =>
    simp only [Entry.read] at h
    split at h
    next size hsize =>
      cases h
      cases hwords
      exact checkSize_of_readArenaSize hsize
    next => contradiction

namespace Given

variable {given given' : Given} {env : Environment} {options : Options}

def Sound (given : Given) : Prop := ∀ entry ∈ given.entries, entry.Sound

theorem sound_of_accept {s : Setting} {value : String} (hsound : given.Sound)
    (h : given.accept s value = .ok given') : given'.Sound := by
  unfold accept at h
  split at h
  · contradiction
  · obtain ⟨entry, hread, hentries⟩ := exists_of_bind_eq_ok h
    cases hentries
    intro other hother
    rcases List.mem_append.mp hother with hmem | hmem
    · exact hsound other hmem
    · rw [List.mem_singleton.mp hmem]
      exact Entry.sound_of_read hread

theorem checkSize_of_heapWords {words : Nat} (hsound : given.Sound)
    (h : given.heapWords = some words) : Arena.checkSize words = .ok () := by
  obtain ⟨entry, hmem, hwords⟩ := List.exists_of_findSome?_eq_some h
  exact hsound entry hmem words hwords

theorem checkSize_of_arenaSize {words : Nat} (hsound : given.Sound)
    (h : given.arenaSize env = .ok words) : Arena.checkSize words = .ok () := by
  unfold arenaSize at h
  split at h
  next hsize =>
    cases h
    exact checkSize_of_heapWords hsound hsize
  next =>
    cases h
    rfl
  next =>
    split at h
    next size hsize =>
      cases h
      exact checkSize_of_readArenaSize hsize
    next => contradiction

theorem checkSize_of_complete (hsound : given.Sound) (h : given.complete env = .ok options) :
    Arena.checkSize options.heapWords = .ok () := by
  obtain ⟨words, hwords, hoptions⟩ := exists_of_bind_eq_ok h
  cases hoptions
  exact checkSize_of_arenaSize hsound hwords

end Given

namespace Reading

variable {r : Reading} {given : Given} {env : Environment} {options : Options}

theorem sound_of_settle (hsound : r.given.Sound) (h : r.settle = .ok given) : given.Sound := by
  unfold settle at h
  split at h
  · cases h
    exact hsound
  · contradiction
  · exact Given.sound_of_accept hsound h

theorem checkSize_of_end (hsound : r.given.Sound)
    (h : (do let given ← r.settle; return Request.run (← given.complete env)) =
      (.ok (.run options) : Except Rejection Request)) :
    Arena.checkSize options.heapWords = .ok () := by
  obtain ⟨given, hsettle, hrest⟩ := exists_of_bind_eq_ok h
  obtain ⟨completed, hcomplete, hrun⟩ := exists_of_bind_eq_ok hrest
  cases hrun
  exact Given.checkSize_of_complete (sound_of_settle hsound hsettle) hcomplete

theorem checkSize_of_request {arguments : List String} (hsound : r.given.Sound)
    (h : r.request env arguments = .ok (.run options)) :
    Arena.checkSize options.heapWords = .ok () := by
  -- whatever an argument does, the settings made by then stay sound
  induction arguments generalizing r with
  | nil => exact checkSize_of_end hsound h
  | cons argument rest ih =>
    cases htoken : Token.ofArgument argument with
    | terminator =>
      simp only [request, htoken] at h
      cases rest with
      | nil => exact checkSize_of_end hsound h
      | cons extra more => contradiction
    | setting s value =>
      cases value with
      | none =>
        simp only [request, htoken] at h
        obtain ⟨given, hsettle, hrest⟩ := exists_of_bind_eq_ok h
        have hgiven : given.Sound := sound_of_settle hsound hsettle
        exact ih hgiven hrest
      | some value =>
        simp only [request, htoken] at h
        obtain ⟨given, hsettle, hmade⟩ := exists_of_bind_eq_ok h
        obtain ⟨given', haccept, hrest⟩ := exists_of_bind_eq_ok hmade
        have hgiven : given'.Sound :=
          Given.sound_of_accept (sound_of_settle hsound hsettle) haccept
        exact ih hgiven hrest
    | flag f value =>
      cases value with
      | none =>
        simp only [request, htoken] at h
        obtain ⟨given, -, hdisplay⟩ := exists_of_bind_eq_ok h
        cases hdisplay
      | some value =>
        simp only [request, htoken] at h
        contradiction
    | unknownName name =>
      simp only [request, htoken] at h
      contradiction
    | unknownLetter letter =>
      simp only [request, htoken] at h
      contradiction
    | plain text =>
      simp only [request, htoken] at h
      split at h
      next s _ =>
        have hgiven : Given.Sound (Reading.mk r.given (some (s, some text))).given := hsound
        exact ih hgiven h
      next => contradiction

end Reading

/-- **The options of an accepted command line name a size that every arena may have.** -/
theorem Options.checkSize_of_request {arguments : List String} {env : Environment}
    {options : Options} (h : Options.request arguments env = .ok (.run options)) :
    Arena.checkSize options.heapWords = .ok () :=
  Reading.checkSize_of_request (r := {}) (fun _ hmem => absurd hmem List.not_mem_nil) h

end TaggedWords
