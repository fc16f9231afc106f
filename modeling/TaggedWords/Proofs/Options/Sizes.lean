import TaggedWords.Arena.Heap
import TaggedWords.Options.Text
import TaggedWords.Proofs.Numeral.Scan

/-!
# Which texts are arena sizes

The size of the arena is looked at twice: as a text among the options, and as a number when the heap
is made.  Both ask for the same, so a text that is accepted is never refused later, and one whose
number the heap would take is accepted.

* `Heap.RefusesSize`           a heap of so many words is too small or too large;
* `Heap.not_refusesSize_iff`   the heap takes the sizes that are accepted among the options;
* `shownSize`                  the size that a text stands for, or what is shown instead;
* `SizeVerdict`                what a text comes to, by its characters and the heap;
* `shownSize_eq_iff`           every text is read as what it comes to.
-/

namespace TaggedWords

namespace Heap

/-- A heap of so many words is refused for its size. -/
def RefusesSize (words : Nat) : Prop :=
  (∃ w, ofSize words = .error (.tooSmall w)) ∨ ∃ w limit, ofSize words = .error (.tooLarge w limit)

theorem not_refusesSize_iff (words : Nat) :
    ¬ RefusesSize words ↔ Arena.minWords ≤ words ∧ words ≤ Arena.maxWords := by
  rw [← Arena.checkSize_eq_ok_iff]
  unfold RefusesSize ofSize Arena.ofSize
  cases h : Arena.checkSize words with
  | ok => simp [Except.map]
  | error e =>
    unfold Arena.checkSize at h
    split at h
    · cases h
      simp [Except.map]
    · split at h
      · cases h
        simp [Except.map]
      · contradiction

end Heap

/-- The size that a text stands for, or what is shown where it stands for none. -/
def shownSize (text : String) : Except String Nat :=
  (readArenaSize text).mapError (SizeError.message text)

inductive SizeVerdict (text : String) : Except String Nat → Prop where
  | accepted {words : Nat} (denotes : Count.Denotes text.toList words)
      (taken : ¬ Heap.RefusesSize words) : SizeVerdict text (.ok words)
  | empty (h : text = "") :
    SizeVerdict text (.error
      ("`" ++ text ++ "` is not a word count: " ++ "cannot parse integer from empty string"))
  | sign (h : text = "+" ∨ text = "-") :
    SizeVerdict text (.error
      ("`" ++ text ++ "` is not a word count: " ++ "invalid digit found in string"))
  | invalid {c : Char} (decides : Count.Decides 0 (Count.unsigned text.toList) c)
      (hc : c.isDigit = false) :
    SizeVerdict text (.error
      ("`" ++ text ++ "` is not a word count: " ++ "invalid digit found in string"))
  | tooLarge {c : Char} (decides : Count.Decides 0 (Count.unsigned text.toList) c)
      (hc : c.isDigit = true) :
    SizeVerdict text (.error
      ("`" ++ text ++ "` is not a word count: " ++ "number too large to fit in target type"))
  | outOfRange {words : Nat} (denotes : Count.Denotes text.toList words)
      (hwords : words ≤ 2 ^ 64 - 1) (refused : Heap.RefusesSize words) :
    SizeVerdict text (.error "arena size must be between 2 and 1073741824 words")

section
variable {text : String} {words : Nat} {e : Count.Error} {c : Char}

theorem shownSize_of_error (h : Count.read text.toList = .error e) :
    shownSize text = .error ("`" ++ text ++ "` is not a word count: " ++ e.message) := by
  rw [shownSize, readArenaSize, h]
  rfl

theorem shownSize_of_taken (h : Count.read text.toList = .ok words)
    (htaken : ¬ Heap.RefusesSize words) : shownSize text = .ok words := by
  rw [Heap.not_refusesSize_iff] at htaken
  rw [shownSize, readArenaSize, h]
  dsimp only
  rw [if_pos htaken]
  rfl

theorem shownSize_of_refused (h : Count.read text.toList = .ok words)
    (hrefused : Heap.RefusesSize words) :
    shownSize text = .error "arena size must be between 2 and 1073741824 words" := by
  have hout : ¬ (Arena.minWords ≤ words ∧ words ≤ Arena.maxWords) :=
    fun hin => (Heap.not_refusesSize_iff words).mpr hin hrefused
  rw [shownSize, readArenaSize, h]
  dsimp only
  rw [if_neg hout]
  rfl

theorem shownSize_of_decides (h : Count.Decides 0 (Count.unsigned text.toList) c) :
    shownSize text =
      .error ("`" ++ text ++ "` is not a word count: " ++ (Count.blame c).message) := by
  have hne : Count.unsigned text.toList ≠ [] := by
    intro hnil
    rw [hnil] at h
    exact Count.not_decides_nil c h
  exact shownSize_of_error ((Count.read_eq_error_iff hne).mpr ⟨c, h, rfl⟩)

end

theorem shownSize_eq_of_verdict {text : String} {r : Except String Nat}
    (h : SizeVerdict text r) : shownSize text = r := by
  cases h with
  | accepted denotes taken =>
    -- the limit of the arena lies below that of a count
    have hlimit : Arena.maxWords ≤ Count.max := by decide
    have hwords := ((Heap.not_refusesSize_iff _).mp taken).2
    exact shownSize_of_taken (Count.read_eq_ok_iff.mpr ⟨denotes, by omega⟩) taken
  | empty h =>
    subst h
    exact shownSize_of_error (e := .empty) rfl
  | sign h =>
    rcases h with rfl | rfl
    · exact shownSize_of_error (e := .invalidDigit) rfl
    · exact shownSize_of_error (e := .invalidDigit) rfl
  | invalid decides hc =>
    rw [shownSize_of_decides decides, Count.blame, hc]
    rfl
  | tooLarge decides hc =>
    rw [shownSize_of_decides decides, Count.blame, hc]
    rfl
  | outOfRange denotes hwords refused =>
    exact shownSize_of_refused (Count.read_eq_ok_iff.mpr ⟨denotes, hwords⟩) refused

theorem exists_sizeVerdict (text : String) : ∃ r, SizeVerdict text r := by
  cases hread : Count.read text.toList with
  | ok words =>
    obtain ⟨denotes, hwords⟩ := Count.read_eq_ok_iff.mp hread
    by_cases hrefused : Heap.RefusesSize words
    · exact ⟨_, .outOfRange denotes hwords hrefused⟩
    · exact ⟨_, .accepted denotes hrefused⟩
  | error e =>
    by_cases hnil : Count.unsigned text.toList = []
    · rcases Count.unsigned_eq_nil_iff.mp hnil with hempty | hplus
      · exact ⟨_, .empty (String.toList_inj.mp hempty)⟩
      · exact ⟨_, .sign (.inl (String.toList_inj.mp hplus))⟩
    · obtain ⟨c, decides, -⟩ := (Count.read_eq_error_iff hnil).mp hread
      cases hc : c.isDigit with
      | false => exact ⟨_, .invalid decides hc⟩
      | true => exact ⟨_, .tooLarge decides hc⟩

/-- Every text is read as what it comes to, and the heap takes two up to `2 ^ 30` words. -/
theorem shownSize_eq_iff (text : String) (r : Except String Nat) :
    (shownSize text = r ↔ SizeVerdict text r) ∧
      ∀ words, ¬ Heap.RefusesSize words ↔ 2 ≤ words ∧ words ≤ 2 ^ 30 := by
  refine ⟨⟨fun h => ?_, shownSize_eq_of_verdict⟩, Heap.not_refusesSize_iff⟩
  obtain ⟨r', hverdict⟩ := exists_sizeVerdict text
  rw [← h, shownSize_eq_of_verdict hverdict]
  exact hverdict

-- the digit that makes the number too large stands in front of the letter
example : readArenaSize "+0018446744073709551616x" = .error (.notACount .tooLarge) := by
  decide +kernel

end TaggedWords
