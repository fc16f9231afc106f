import TaggedWords.Failure.Basic
import TaggedWords.Proofs.Output.Limit

/-!
# Reports of failures

The report of a failure is its message behind `Error: `, on a line of its own unless the failure is
a known fault.  A sink takes as much of the report as it has room for.  It is flushed only behind a
whole report, so a sink that is too small and cannot be flushed either tells the former.

* `Failure.IsKnownFault`                 a fault whose code has a meaning;
* `Failure.report_eq`                    what a report looks like;
* `Sink.writeReport_to_limited_sink`     reporting to a sink with a limit, and the exit status.
-/

namespace TaggedWords

namespace Failure

def IsKnownFault (e : Failure) : Prop :=
  ∃ code : Int, 0 ≤ code ∧ code ≤ 6 ∧ e = .fault (Fault.ofCode code)

theorem endsLine_eq_false_iff {e : Failure} : e.endsLine = false ↔ e.IsKnownFault := by
  constructor
  · intro h
    cases e with
    | fault f =>
      have hknown : f.isKnown = true := by simpa [endsLine] using h
      obtain ⟨hlow, hhigh⟩ := f.isKnown_iff.mp hknown
      exact ⟨f.code, hlow, hhigh, by rw [Fault.ofCode_code]⟩
    | _ => contradiction
  · rintro ⟨code, hlow, hhigh, rfl⟩
    have hknown : (Fault.ofCode code).isKnown = true := by
      rw [Fault.isKnown_iff, Fault.code_ofCode]
      exact ⟨hlow, hhigh⟩
    show (!(Fault.ofCode code).isKnown) = false
    rw [hknown]
    rfl

theorem report_of_isKnownFault {e : Failure} (h : e.IsKnownFault) :
    e.report = "Error: " ++ e.message := by
  rw [report, endsLine_eq_false_iff.mpr h]
  simp

theorem report_of_not_isKnownFault {e : Failure} (h : ¬ e.IsKnownFault) :
    e.report = "Error: " ++ e.message ++ "\n" := by
  have hends : e.endsLine = true := by
    rw [← Bool.not_eq_false, endsLine_eq_false_iff]
    exact h
  rw [report, hends, if_pos rfl]

theorem exitStatus_of_not_fault {e : Failure} (h : ∀ f, e ≠ .fault f) : e.exitStatus = 70 := by
  cases e with
  | fault f => exact absurd rfl (h f)
  | _ => rfl

end Failure

namespace Sink

variable {sink : Sink} {e : Failure} {n : Nat}

theorem writeReport_of_short (hroom : sink.HasRoom n) (hshort : n < (bytesOf e.report).length) :
    (sink.writeReport e).1 = .error sink.full := by
  rw [writeReport, write_of_hasRoom hroom, if_neg (Nat.not_le.mpr hshort)]

theorem writeReport_of_fits (hroom : sink.HasRoom n) (hfits : (bytesOf e.report).length ≤ n) :
    (sink.writeReport e).1 = sink.flush := by
  rw [writeReport, write_of_hasRoom hroom, if_pos hfits]
  rfl

theorem taken_writeReport (hroom : sink.HasRoom n) :
    (sink.writeReport e).2 =
      sink.adding ((bytesOf e.report).take (min n (bytesOf e.report).length)) := by
  rw [writeReport, write_of_hasRoom hroom]
  split
  · next h => exact (congrArg Prod.snd h).symm
  · next h => exact (congrArg Prod.snd h).symm

/-- **A report is cut short by the limit, and else depends on flushing.**  What does not fit is not
flushed, and the pieces in which the report is written make no difference. -/
theorem writeReport_to_limited_sink (hroom : sink.HasRoom n) (e : Failure) :
    (∃ text report, (e.IsKnownFault → text = "Error: " ++ e.message) ∧
        (¬ e.IsKnownFault → text = "Error: " ++ e.message ++ "\n") ∧ report = bytesOf text ∧
        (sink.writeReport e).2 = sink.adding (report.take (min n report.length)) ∧
        (n < report.length → (sink.writeReport e).1 = .error sink.full) ∧
        (report.length ≤ n → ∀ reason, sink.stuck = some reason →
          (sink.writeReport e).1 = .error reason) ∧
        (report.length ≤ n → sink.stuck = none → (sink.writeReport e).1 = .ok ()) ∧
        ∀ pieces, pieces.flatten = report → sink.offerAll pieces =
          (if report.length ≤ n then .ok () else .error sink.full,
            sink.adding (report.take (min n report.length)))) ∧
      (∀ code, (Fault.ofCode code).code = code) ∧ (∀ f, Fault.ofCode f.code = f) ∧
      (∀ f, e = .fault f → e.exitStatus = f.code) ∧
      ((∀ f, e ≠ .fault f) → e.exitStatus = 70) := by
  refine ⟨⟨e.report, bytesOf e.report, Failure.report_of_isKnownFault,
    Failure.report_of_not_isKnownFault, rfl, taken_writeReport hroom, writeReport_of_short hroom,
    fun hfits reason hstuck => ?_, fun hfits hflushes => ?_, fun pieces hpieces => ?_⟩,
    Fault.code_ofCode, Fault.ofCode_code, fun f hf => ?_, Failure.exitStatus_of_not_fault⟩
  · rw [writeReport_of_fits hroom hfits, flush, hstuck]
  · rw [writeReport_of_fits hroom hfits, flush, hflushes]
  · rw [offerAll_eq_offer, hpieces]
    exact offer_of_hasRoom hroom _
  · rw [hf]
    rfl

/-- There is room for the message of an unknown code, but not for the line break. -/
theorem writeReport_to_limited_sink_before_break :
    HasRoom ⟨some 29, "full", some "stuck", []⟩ 29 ∧
      writeReport ⟨some 29, "full", some "stuck", []⟩ (.fault (.ofCode 42)) =
        (.error "full",
          ⟨some 29, "full", some "stuck", bytesOf "Error: Unknown error code: 42"⟩) := by
  have hroom : HasRoom ⟨some 29, "full", some "stuck", []⟩ 29 := rfl
  have hunknown : ¬ (Failure.fault (.ofCode 42)).IsKnownFault := by
    rintro ⟨code, -, hhigh, h⟩
    injection h with h
    have hcode := congrArg Fault.code h
    rw [Fault.code_ofCode, Fault.code_ofCode] at hcode
    omega
  obtain ⟨⟨text, report, -, htext, rfl, htaken, hshort, -⟩, -⟩ :=
    writeReport_to_limited_sink hroom (.fault (.ofCode 42))
  have hreport : text = "Error: Unknown error code: 42\n" := (htext hunknown).trans (by decide +kernel)
  subst hreport
  have hlength : (bytesOf "Error: Unknown error code: 42\n").length = 30 := by decide +kernel
  have htake : (bytesOf "Error: Unknown error code: 42\n").take 29 =
      bytesOf "Error: Unknown error code: 42" := by decide +kernel
  rw [hlength, Nat.min_eq_left (by decide), htake] at htaken
  exact ⟨hroom, Prod.ext (hshort (by rw [hlength]; decide)) htaken⟩

end Sink

end TaggedWords
