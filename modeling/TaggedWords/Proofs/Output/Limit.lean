import TaggedWords.Proofs.Output.Writing
import TaggedWords.Proofs.Walk.Dangling

/-!
# Sinks with a limit

A sink with room for `n` more bytes takes the first `n` bytes of whatever is written, and writing
fails exactly if there are more.  In which pieces a text is written makes no difference, as long as
they are written in order and the first failure is the last attempt.

* `Sink.HasRoom`                  the number of bytes that a sink still takes;
* `Sink.offer`, `Sink.offerAll`   bytes as one piece, and in several;
* `Sink.offerAll_eq_offer`        several pieces are taken as one;
* `Sink.write_of_hasRoom`         writing a text to a sink with a limit;
* `Arena.print_to_limited_sink`   printing a word to such a sink.
-/

namespace TaggedWords

namespace Sink

variable {sink : Sink} {bytes xs ys : List UInt8} {n : Nat}

theorem adding_adding (sink : Sink) (xs ys : List UInt8) :
    (sink.adding xs).adding ys = sink.adding (xs ++ ys) := by
  simp [adding]

/-! ## pieces -/

/-- Offers bytes to a sink.  A sink without room for all of them takes the first and fails. -/
def offer (sink : Sink) (bytes : List UInt8) : Except String Unit × Sink :=
  (if sink.room bytes.length = bytes.length then .ok () else .error sink.full,
    sink.adding (bytes.take (sink.room bytes.length)))

def offerAll (sink : Sink) : List (List UInt8) → Except String Unit × Sink
  | [] => (.ok (), sink)
  | piece :: rest =>
    match sink.offer piece with
    | (.ok (), sink) => offerAll sink rest
    | (.error reason, sink) => (.error reason, sink)

theorem write_eq_offer (sink : Sink) (text : String) : sink.write text = sink.offer (bytesOf text) :=
  rfl

theorem write_stuck (sink : Sink) (stuck : Option String) (text : String) :
    { sink with stuck := stuck }.write text =
      ((sink.write text).1, { (sink.write text).2 with stuck := stuck }) :=
  rfl

theorem offer_of_fits (h : sink.room bytes.length = bytes.length) :
    sink.offer bytes = (.ok (), sink.adding bytes) := by
  rw [offer, if_pos h, h, List.take_length]

theorem offer_of_short (h : sink.room bytes.length ≠ bytes.length) :
    sink.offer bytes =
      (.error sink.full, sink.adding (bytes.take (sink.room bytes.length))) := by
  rw [offer, if_neg h]

theorem room_add_of_fits (h : sink.room xs.length = xs.length) (k : Nat) :
    sink.room (xs.length + k) = xs.length + (sink.adding xs).room k := by
  unfold room adding at *
  cases hlimit : sink.limit with
  | none => rfl
  | some limit =>
    simp only [hlimit, List.length_append] at h ⊢
    omega

theorem room_add_of_short {a : Nat} (h : sink.room a ≠ a) (k : Nat) :
    sink.room (a + k) = sink.room a := by
  unfold room at *
  cases hlimit : sink.limit with
  | none =>
    rw [hlimit] at h
    exact absurd rfl h
  | some limit =>
    simp only [hlimit] at h ⊢
    omega

theorem offer_append (sink : Sink) (xs ys : List UInt8) :
    sink.offer (xs ++ ys) =
      match sink.offer xs with
      | (.ok (), sink) => sink.offer ys
      | (.error reason, sink) => (.error reason, sink) := by
  by_cases h : sink.room xs.length = xs.length
  · rw [offer_of_fits h]
    show _ = (sink.adding xs).offer ys
    unfold offer
    rw [List.length_append, room_add_of_fits h, List.take_length_add_append, adding_adding]
    simp only [Nat.add_left_cancel_iff]
    rfl
  · have hle : sink.room xs.length ≤ xs.length := sink.room_le xs.length
    have hroom : sink.room (xs ++ ys).length = sink.room xs.length := by
      rw [List.length_append, room_add_of_short h]
    have hshort : sink.room (xs ++ ys).length ≠ (xs ++ ys).length := by
      rw [hroom, List.length_append]
      omega
    rw [offer_of_short h, offer_of_short hshort, hroom, List.take_append_of_le_length hle]

/-- **Pieces are taken as one**, wherever the bytes are cut into pieces. -/
theorem offerAll_eq_offer (sink : Sink) (pieces : List (List UInt8)) :
    sink.offerAll pieces = sink.offer pieces.flatten := by
  induction pieces generalizing sink with
  | nil =>
    have hroom : sink.room 0 = 0 := Nat.le_zero.mp (sink.room_le 0)
    rw [offerAll, List.flatten_nil, offer_of_fits hroom]
    simp [adding]
  | cons piece rest ih =>
    rw [offerAll, List.flatten_cons, offer_append]
    split
    · exact ih _
    · rfl

/-! ## a limit -/

/-- The sink takes `n` more bytes, and no more. -/
def HasRoom (sink : Sink) (n : Nat) : Prop := sink.limit = some (sink.taken.length + n)

theorem room_of_hasRoom (h : sink.HasRoom n) (wanted : Nat) : sink.room wanted = min n wanted := by
  rw [room, h]
  simp only
  omega

theorem offer_of_hasRoom (h : sink.HasRoom n) (bytes : List UInt8) :
    sink.offer bytes =
      (if bytes.length ≤ n then .ok () else .error sink.full,
        sink.adding (bytes.take (min n bytes.length))) := by
  have hroom := room_of_hasRoom h bytes.length
  rw [offer, hroom]
  simp only [min_eq_right_iff]

theorem write_of_hasRoom (h : sink.HasRoom n) (text : String) :
    sink.write text =
      (if (bytesOf text).length ≤ n then .ok () else .error sink.full,
        sink.adding ((bytesOf text).take (min n (bytesOf text).length))) := by
  rw [write_eq_offer, offer_of_hasRoom h]

end Sink

/-! ## printing a word -/

namespace Arena

variable {arena : Arena} {w : Word} {sink : Sink} {text : String} {n : Nat}

theorem print_of_hasRoom (hends : arena.RenderEndsWith w (.ok text)) (hroom : sink.HasRoom n) :
    arena.print w sink = some
      (if (bytesOf (text ++ "\n")).length ≤ n then .ok w else .error (.output sink.full),
        sink.adding ((bytesOf (text ++ "\n")).take (min n (bytesOf (text ++ "\n")).length))) := by
  rw [print, render_run_eq_some_iff.mpr hends, Option.map_some]
  simp only [lineOf, Sink.write_of_hasRoom hroom]
  by_cases hfits : (bytesOf (text ++ "\n")).length ≤ n
  · simp only [if_pos hfits]
  · simp only [if_neg hfits]

theorem print_stuck (arena : Arena) (w : Word) (sink : Sink) (stuck : Option String) :
    arena.print w { sink with stuck := stuck } =
      (arena.print w sink).map fun printed =>
        (printed.1, { printed.2 with stuck := stuck }) := by
  unfold print
  rcases (arena.render w).run with _ | e | text
  · rfl
  · rfl
  · simp only [Option.map_some, Sink.write_stuck]
    rcases sink.write (lineOf text) with ⟨_ | _, after⟩
    · rfl
    · rfl

/-- **Printing is cut short by nothing but the limit.**  A word that meets a dangling reference
leaves the sink alone; of every other word the sink gets the line, as far as there is room. -/
theorem print_to_limited_sink (hends : ∃ outcome, arena.RenderEndsWith w outcome)
    (hroom : sink.HasRoom n) :
    ((∃ path r, arena.FirstDangling w path r ∧
        arena.print w sink = some (.error (.arena (.outOfBounds r.offset arena.size)), sink)) ∨
      (∀ path r, ¬ arena.DanglingAt w path r) ∧
        ∃ text line, arena.RenderEndsWith w (.ok text) ∧ line = bytesOf (text ++ "\n") ∧
          arena.print w sink = some
            (if line.length ≤ n then .ok w else .error (.output sink.full),
              sink.adding (line.take (min n line.length))) ∧
          ∀ pieces, pieces.flatten = line → sink.offerAll pieces =
            (if line.length ≤ n then .ok () else .error sink.full,
              sink.adding (line.take (min n line.length)))) ∧
      ∀ stuck, arena.print w { sink with stuck := stuck } =
        (arena.print w sink).map fun printed => (printed.1, { printed.2 with stuck := stuck }) := by
  refine ⟨?_, arena.print_stuck w sink⟩
  obtain ⟨e | text, houtcome⟩ := hends
  · obtain ⟨m, hm⟩ := houtcome
    obtain ⟨path, r, hfirst, rfl⟩ := exists_firstDangling_of_error hm
    exact .inl ⟨path, r, hfirst, print_of_error ⟨m, hm⟩ sink⟩
  · refine .inr ⟨fun path r hdangling => ?_, text, _, houtcome, rfl,
      print_of_hasRoom houtcome hroom, fun pieces hpieces => ?_⟩
    · obtain ⟨m, hm⟩ := houtcome
      exact not_danglingAt_of_rendered hm hdangling
    · rw [Sink.offerAll_eq_offer, hpieces]
      exact Sink.offer_of_hasRoom hroom _

/-- There is room for a tuple with an unrecognized word in it, but not for the line break. -/
theorem print_to_limited_sink_before_break :
    (⟨#[1, 3]⟩ : Arena).RenderEndsWith 1 (.ok "(Unknown value: 0x00000003)") ∧
      Sink.HasRoom ⟨some 29, "full", some "stuck", [65, 10]⟩ 27 ∧
      (⟨#[1, 3]⟩ : Arena).print 1 ⟨some 29, "full", some "stuck", [65, 10]⟩ =
        some (.error (.output "full"),
          ⟨some 29, "full", some "stuck", [65, 10] ++ bytesOf "(Unknown value: 0x00000003)"⟩) := by
  have hends : (⟨#[1, 3]⟩ : Arena).RenderEndsWith 1 (.ok "(Unknown value: 0x00000003)") :=
    ⟨2, by decide +kernel⟩
  have hroom : Sink.HasRoom ⟨some 29, "full", some "stuck", [65, 10]⟩ 27 := rfl
  obtain ⟨hprint, -⟩ := print_to_limited_sink ⟨_, hends⟩ hroom
  refine ⟨hends, hroom, ?_⟩
  rcases hprint with ⟨path, r, ⟨hdangling, -⟩, -⟩ | ⟨-, text, line, htext, rfl, hprint, -⟩
  · exact absurd hdangling (not_danglingAt_of_rendered hends.choose_spec)
  · obtain rfl : text = "(Unknown value: 0x00000003)" := by
      injection renderEndsWith_unique htext hends
    have hlength : (bytesOf ("(Unknown value: 0x00000003)" ++ "\n")).length = 28 := by decide +kernel
    have htake : (bytesOf ("(Unknown value: 0x00000003)" ++ "\n")).take 27 =
        bytesOf "(Unknown value: 0x00000003)" := by decide +kernel
    rw [hprint, hlength, if_neg (by decide), Nat.min_eq_left (by decide), htake]
    rfl

end Arena

end TaggedWords
