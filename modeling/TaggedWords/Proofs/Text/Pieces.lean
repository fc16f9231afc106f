import Mathlib.Data.String.Basic

/-!
# Texts in one piece

A text is cut at its commas by a walk over its positions.  Where no comma is left, the walk goes to
the end and gives the whole text.

* `splitOnAux_of_not_mem`   the rest of such a walk;
* `splitOn_of_not_mem`      a text without a comma is one piece.
-/

namespace TaggedWords

open String

/-- The rest of a text is not cut where there is no comma in it. -/
theorem splitOnAux_of_not_mem (seen rest : List Char) (h : ',' ∉ rest) :
    (ofList (seen ++ rest)).splitOnAux "," 0 ⟨utf8Len seen⟩ 0 [] = [ofList (seen ++ rest)] := by
  induction rest generalizing seen with
  | nil =>
    have hall := extract_of_valid [] seen []
    rw [utf8Len_nil, Nat.zero_add, List.nil_append] at hall
    rw [splitOnAux, if_pos ((atEnd_of_valid seen []).mpr rfl)]
    exact congrArg (fun piece => [piece]) (hall.trans (by rw [List.append_nil]))
  | cons c rest ih =>
    have hc := List.ne_of_not_mem_cons h
    have hrest := List.not_mem_of_not_mem_cons h
    have hmore : ¬ Pos.Raw.atEnd (ofList (seen ++ c :: rest)) ⟨utf8Len seen⟩ = true :=
      fun hend => List.cons_ne_nil c rest ((atEnd_of_valid seen (c :: rest)).mp hend)
    have hother : ¬ (Pos.Raw.get (ofList (seen ++ c :: rest)) ⟨utf8Len seen⟩ ==
        Pos.Raw.get "," 0) = true := by
      rw [get_of_valid]
      exact fun heq => hc (beq_iff_eq.mp heq).symm
    have hnext : Pos.Raw.next (ofList (seen ++ c :: rest))
        (Pos.Raw.unoffsetBy ⟨utf8Len seen⟩ 0) = ⟨utf8Len (seen ++ [c])⟩ := by
      rw [utf8Len_append, utf8Len_cons, utf8Len_nil, Nat.zero_add]
      exact next_of_valid seen c rest
    rw [splitOnAux, if_neg hmore, if_neg hother, hnext, List.append_cons]
    exact ih (seen ++ [c]) hrest

theorem splitOn_of_not_mem {text : String} (h : ',' ∉ text.toList) :
    text.splitOn "," = [text] := by
  have hpieces := splitOnAux_of_not_mem [] text.toList h
  rw [List.nil_append, ofList_toList] at hpieces
  rw [splitOn, if_neg (by decide)]
  exact hpieces

end TaggedWords
