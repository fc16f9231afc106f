import Std.Data.String.ToInt
import TaggedWords.Proofs.Failure.Reports
import TaggedWords.Proofs.Numeral.Decimal
import TaggedWords.Proofs.Numeral.Hex

/-!
# Reports can be read back

Every message begins with a fixed text, and none of these texts begins another.  So the beginning of
a report tells the kind of the failure.  What follows tells the rest: the numbers that stand in it,
or why output could not be written, whatever that looks like.

* `Failure.Kind`, `Kind.opening`    kinds of failures, and how their messages begin;
* `Kind.eq_of_append_eq`            the beginning of a text tells the kind;
* `Kind.read`, `read_details`       a failure is read from what follows;
* `Failure.report_injective`        different failures have different reports;
* `Sink.taken_writeReport_inj`      and leave different bytes in a sink without a limit.
-/

namespace TaggedWords

namespace Failure

/-! ## kinds of failures -/

inductive Kind where
  | known (f : Fault)
  | unknownCode
  /-- A size that no arena has. -/
  | size
  | allocation
  | outOfBounds
  | exhausted
  | notInstalled
  | alreadyInstalled
  | output
  deriving DecidableEq

namespace Kind

def opening : Kind → String
  | .known f => f.message
  | .unknownCode => "Unknown error code: "
  | .size => "arena of "
  | .allocation => "allocation of an arena of "
  | .outOfBounds => "tuple at offset " ++ "0x"
  | .exhausted => "arena exhausted: record needs "
  | .notInstalled => Failure.notInstalled.message
  | .alreadyInstalled => Failure.alreadyInstalled.message
  | .output => "output failed: "

def ending : Kind → String
  | .known _ => ""
  | _ => "\n"

def all : List Kind :=
  [.known .comparisonNonNumber, .known .arithmeticNonNumber, .known .ifNonBoolean, .known .overflow,
    .known .notATuple, .known .indexTooSmall, .known .indexTooLarge, .unknownCode, .size,
    .allocation, .outOfBounds, .exhausted, .notInstalled, .alreadyInstalled, .output]

/-- The messages of a kind do not begin as those of another kind do. -/
theorem eq_of_isPrefix :
    ∀ k ∈ all, ∀ l ∈ all, k.opening.toList <+: l.opening.toList → k = l := by
  decide +kernel

theorem eq_of_append_eq {k l : Kind} {s t : String} (hk : k ∈ all) (hl : l ∈ all)
    (h : k.opening ++ s = l.opening ++ t) : k = l ∧ s = t := by
  have hlists := congrArg String.toList h
  rw [String.toList_append, String.toList_append] at hlists
  have hkl : k = l := by
    have hk' : k.opening.toList <+: l.opening.toList ++ t.toList := ⟨s.toList, hlists⟩
    have hl' : l.opening.toList <+: l.opening.toList ++ t.toList := List.prefix_append _ _
    rcases List.prefix_or_prefix_of_prefix hk' hl' with hprefix | hprefix
    · exact eq_of_isPrefix k hk l hl hprefix
    · exact (eq_of_isPrefix l hl k hk hprefix).symm
  subst hkl
  exact ⟨rfl, (String.append_right_inj k.opening).mp h⟩

def read (k : Kind) (details : String) : Failure :=
  let numbers := Decimal.numbers details.toList
  match k with
  | .known f => .fault f
  | .unknownCode => .fault (.ofCode (details.toInt?.getD 0))
  | .size =>
    match numbers with
    | words :: limit :: _ => .arena (.tooLarge words limit)
    | _ => .arena (.tooSmall (numbers.headD 0))
  | .allocation => .arena (.allocationFailed (numbers.headD 0))
  | .outOfBounds =>
    .arena (.outOfBounds (UInt32.ofNat (Hex.value (details.toList.takeWhile (· ≠ ' '))))
      (numbers.getLastD 0))
  | .exhausted => .arena (.exhausted (numbers.headD 0) (numbers.getLastD 0))
  | .notInstalled => .notInstalled
  | .alreadyInstalled => .alreadyInstalled
  | .output => .output details

end Kind

def kind : Failure → Kind
  | .fault (.unknown _ _) => .unknownCode
  | .fault f => .known f
  | .arena (.tooSmall _) => .size
  | .arena (.tooLarge _ _) => .size
  | .arena (.allocationFailed _) => .allocation
  | .arena (.outOfBounds _ _) => .outOfBounds
  | .arena (.exhausted _ _) => .exhausted
  | .notInstalled => .notInstalled
  | .alreadyInstalled => .alreadyInstalled
  | .output _ => .output

def details : Failure → String
  | .fault (.unknown code _) => toString code
  | .arena (.tooSmall words) => toString words ++ " words is too small"
  | .arena (.tooLarge words limit) =>
    toString words ++ (" words exceeds the limit of " ++ (toString limit ++ " words"))
  | .arena (.allocationFailed words) => toString words ++ " words failed"
  | .arena (.outOfBounds offset arenaWords) =>
    String.ofList (Hex.digits offset.toNat) ++ (" lies outside the arena (" ++
      (toString arenaWords ++ " words)"))
  | .arena (.exhausted requested available) =>
    toString requested ++ (" words, " ++ (toString available ++ " left"))
  | .output reason => reason
  | _ => ""

theorem kind_mem_all (e : Failure) : e.kind ∈ Kind.all := by
  rcases e with f | e | _ | _ | reason
  · cases f <;> simp [kind, Kind.all]
  · cases e <;> simp [kind, Kind.all]
  · simp [kind, Kind.all]
  · simp [kind, Kind.all]
  · simp [kind, Kind.all]

theorem message_eq (e : Failure) : e.message = e.kind.opening ++ e.details := by
  rcases e with f | e | _ | _ | reason
  · cases f with
    | unknown code outside => rfl
    | _ => exact String.append_empty.symm
  · cases e <;>
      dsimp only [message, ArenaError.message, Hex.offset, kind, Kind.opening, details] <;>
      simp only [String.append_assoc]
  · exact String.append_empty.symm
  · exact String.append_empty.symm
  · rfl

theorem kind_ending (e : Failure) : (if e.endsLine then "\n" else "") = e.kind.ending := by
  rcases e with f | e | _ | _ | reason
  · cases f <;> rfl
  · cases e <;> rfl
  · rfl
  · rfl
  · rfl

theorem report_eq (e : Failure) :
    e.report = "Error: " ++ (e.kind.opening ++ (e.details ++ e.kind.ending)) := by
  rw [report, message_eq, kind_ending]
  simp only [String.append_assoc]

/-! ## reading -/

section
open Decimal

theorem toList_toString (n : Nat) : (toString n).toList = Nat.toDigits 10 n := Nat.toList_repr

theorem numbers_toString_append (n : Nat) {s : String} (hs : isSeparator s.toList = true) :
    numbers (toString n ++ s).toList = [n] := by
  rw [String.toList_append, numbers_ended hs, toList_toString, numbers_toDigits]

theorem numbers_append_append {s : String} (hs : isSeparator s.toList = true) (before behind : String) :
    numbers (before ++ (s ++ behind)).toList = numbers before.toList ++ numbers behind.toList := by
  rw [String.toList_append, String.toList_append, numbers_separated hs]

theorem numbers_two (m n : Nat) {s t : String} (hs : isSeparator s.toList = true)
    (ht : isSeparator t.toList = true) :
    numbers (toString m ++ (s ++ (toString n ++ t))).toList = [m, n] := by
  rw [numbers_append_append hs, numbers_toString_append n ht, toList_toString, numbers_toDigits]
  rfl

theorem takeWhile_hex (offset : Word) (rest : String) :
    (String.ofList (Hex.digits offset.toNat) ++ (" lies outside the arena (" ++ rest)).toList.takeWhile
      (· ≠ ' ') = Hex.digits offset.toNat := by
  have hspace : ∀ c ∈ Hex.digits offset.toNat, decide (c ≠ ' ') = true := by
    intro c hc
    have halphabet : Hex.alphabet.all (fun c => decide (c ≠ ' ')) = true := by decide
    exact List.all_eq_true.mp halphabet c (Hex.mem_alphabet_of_mem_digits hc)
  have hliteral : " lies outside the arena (".toList = ' ' :: "lies outside the arena (".toList := by
    decide
  rw [String.toList_append, String.toList_append, String.toList_ofList,
    List.takeWhile_append_of_pos hspace, hliteral, List.cons_append,
    List.takeWhile_cons_of_neg (by decide), List.append_nil]

end

/-- A failure is read back from the details of its message. -/
theorem read_details (e : Failure) : e.kind.read e.details = e := by
  rcases e with f | e | _ | _ | reason
  · cases f with
    | unknown code outside =>
      have hcode : (toString code).toInt? = some code := Int.toInt?_repr code
      show fault (.ofCode ((toString code).toInt?.getD 0)) = _
      rw [hcode]
      exact congrArg fault (Fault.ofCode_code (.unknown code outside))
    | _ => rfl
  · cases e with
    | tooSmall words =>
      have hnumbers := numbers_toString_append words (s := " words is too small") (by decide)
      dsimp only [kind, details, Kind.read]
      rw [hnumbers]
      rfl
    | tooLarge words limit =>
      have hnumbers := numbers_two words limit (s := " words exceeds the limit of ") (t := " words")
        (by decide) (by decide)
      dsimp only [kind, details, Kind.read]
      rw [hnumbers]
    | allocationFailed words =>
      have hnumbers := numbers_toString_append words (s := " words failed") (by decide)
      dsimp only [kind, details, Kind.read]
      rw [hnumbers]
      rfl
    | outOfBounds offset arenaWords =>
      have hlast := numbers_toString_append arenaWords (s := " words)") (by decide)
      dsimp only [kind, details, Kind.read]
      rw [takeWhile_hex, Hex.value_digits, UInt32.ofNat_toNat, numbers_append_append (by decide), hlast,
        List.getLastD_concat]
    | exhausted requested available =>
      have hnumbers := numbers_two requested available (s := " words, ") (t := " left")
        (by decide) (by decide)
      dsimp only [kind, details, Kind.read]
      rw [hnumbers]
      rfl
  · rfl
  · rfl
  · rfl

/-- **Different failures have different reports.** -/
theorem report_injective {d e : Failure} (h : d.report = e.report) : d = e := by
  rw [report_eq, report_eq, String.append_right_inj] at h
  obtain ⟨hkind, hrest⟩ := Kind.eq_of_append_eq d.kind_mem_all e.kind_mem_all h
  rw [hkind, String.append_left_inj] at hrest
  calc
    d = d.kind.read d.details := d.read_details.symm
    _ = e.kind.read e.details := by rw [hkind, hrest]
    _ = e := e.read_details

end Failure

namespace Sink

theorem bytesOf_injective {s t : String} (h : bytesOf s = bytesOf t) : s = t := by
  rw [← textOf_bytesOf s, h, textOf_bytesOf]

theorem taken_writeReport_of_no_limit (sink : Sink) (e : Failure) :
    ({ sink with limit := none }.writeReport e).2.taken = sink.taken ++ bytesOf e.report := by
  have hfits : { sink with limit := none }.Fits e.report := nofun
  rw [writeReport, write_of_fits hfits]
  rfl

/-- **A report identifies its failure**, with its code, its numbers and its reason. -/
theorem taken_writeReport_inj (sink : Sink) (d e : Failure) :
    ({ sink with limit := none }.writeReport d).2.taken =
      ({ sink with limit := none }.writeReport e).2.taken ↔ d = e := by
  rw [taken_writeReport_of_no_limit, taken_writeReport_of_no_limit, List.append_right_inj]
  exact ⟨fun h => Failure.report_injective (bytesOf_injective h), fun h => by rw [h]⟩

end Sink

end TaggedWords
