import HttpClient.H1.HeadBreaks
import HttpClient.H1.Segments

/-!
# The lines of a head

The exchange cuts a head at its line breaks and keeps the lines after the first, up to the empty
one. A head ends with its first empty line, so these are all the lines of the head but the first
and the last, in their order.

## Main definitions

* `LinesOf` — the lines of a head after the first

## Main results

* `renderLines_linesAux`, `linesAux_append` — cutting a text that ends with a line break
* `linesOf_headLines` — the lines that the exchange finds
-/

set_option autoImplicit false

namespace HttpClient.H1

open Text

/-- The lines of a head after the first, without the empty line that ends it. -/
def LinesOf (head : Bytes) (lines : List Bytes) : Prop :=
  ∃ first, renderLines (first :: lines) ++ crlf = head ∧ ∀ line ∈ first :: lines, Unbroken line

/-- Text that ends with a line break, with a line begun before it, or nothing at all. -/
def Ended (current text : Bytes) : Prop := (current = [] ∧ text = []) ∨ crlf <:+ text

theorem Ended.of_break {current text : Bytes} (h : Ended current (13 :: 10 :: text)) :
    Ended [] text := by
  rcases h with ⟨-, hnil⟩ | hend
  · cases hnil
  · rcases List.suffix_cons_iff.mp hend with hall | hlater
    · exact Or.inl ⟨rfl, (List.cons.inj (List.cons.inj hall).2).2.symm⟩
    · rcases List.suffix_cons_iff.mp hlater with hshift | hrest
      · exact absurd (List.cons.inj hshift).1 (by decide)
      · exact Or.inr hrest

theorem Ended.of_cons {current text : Bytes} {a b : UInt8} (h : Ended current (a :: b :: text))
    (hbreak : ¬ (a = 13 ∧ b = 10)) : Ended (a :: current) (b :: text) := by
  rcases h with ⟨-, hnil⟩ | hend
  · cases hnil
  · rcases List.suffix_cons_iff.mp hend with hall | hlater
    · exact absurd ⟨(List.cons.inj hall).1.symm, (List.cons.inj (List.cons.inj hall).2).1.symm⟩
        hbreak
    · exact Or.inr hlater

theorem Ended.eq_nil {current : Bytes} (h : Ended current []) : current = [] := by
  rcases h with ⟨hnil, -⟩ | hend
  · exact hnil
  · exact absurd (List.suffix_nil.mp hend) (List.cons_ne_nil _ _)

theorem not_ended_singleton {current : Bytes} {a : UInt8} : ¬ Ended current [a] := by
  rintro (⟨-, hnil⟩ | hend)
  · cases hnil
  · exact absurd hend.length_le (Nat.not_le.mpr Nat.one_lt_two)

/-- The lines of a text that ends with a line break make it up. -/
theorem renderLines_linesAux {current text : Bytes} (h : Ended current text) :
    renderLines (linesAux current text) = current.reverse ++ text := by
  induction current, text using linesAux.induct with
  | case1 current => rw [h.eq_nil, linesAux, renderLines_nil, List.reverse_nil, List.append_nil]
  | case2 current a => exact absurd h not_ended_singleton
  | case3 current a b text hbreak ih =>
    obtain ⟨rfl, rfl⟩ := hbreak
    rw [linesAux, if_pos ⟨rfl, rfl⟩, renderLines_cons, ih h.of_break, List.reverse_nil,
      List.nil_append]
  | case4 current a b text hbreak ih =>
    rw [linesAux, if_neg hbreak, ih (h.of_cons hbreak), List.reverse_cons, List.append_assoc,
      List.singleton_append]

/-- Lines are cut off a text without regard to what follows a line break. -/
theorem linesAux_append {current text : Bytes} (h : Ended current text) (rest : Bytes) :
    linesAux current (text ++ rest) = linesAux current text ++ linesAux [] rest := by
  induction current, text using linesAux.induct with
  | case1 current =>
    rw [h.eq_nil]
    rfl
  | case2 current a => exact absurd h not_ended_singleton
  | case3 current a b text hbreak ih =>
    rw [List.cons_append, List.cons_append, linesAux, linesAux, if_pos hbreak, if_pos hbreak]
    obtain ⟨rfl, rfl⟩ := hbreak
    rw [ih h.of_break, List.cons_append]
  | case4 current a b text hbreak ih =>
    have hlater := ih (h.of_cons hbreak)
    rw [List.cons_append] at hlater
    rw [List.cons_append, List.cons_append, linesAux, linesAux, if_neg hbreak, if_neg hbreak,
      hlater]

/-- The lines that the exchange finds in a head are those after the first. -/
theorem linesOf_headLines {head : Bytes} (h : IsHead head) : LinesOf head (headLines head) := by
  have hfour := h.four_le
  obtain ⟨-, hat, hmin⟩ := find_eq_some_iff.mp h
  have hend : head.drop (head.length - 4) = crlf ++ crlf := by
    have hlength : headerTerminator.length = (head.drop (head.length - 4)).length := by
      rw [List.length_drop, Nat.sub_sub_self hfour]
      decide
    rw [← hat.eq_of_length hlength]
    decide
  have hhead : head = (head.take (head.length - 4) ++ crlf) ++ crlf := by
    rw [List.append_assoc, ← hend, List.take_append_drop]
  set block := head.take (head.length - 4) ++ crlf with hblock
  have hended : Ended [] block := Or.inr (List.suffix_append _ _)
  have hrender := renderLines_linesAux hended
  rw [List.reverse_nil, List.nil_append] at hrender
  have hlines : linesAux [] head = linesAux [] block ++ [[]] := by
    conv_lhs => rw [hhead]
    rw [linesAux_append hended]
    rfl
  cases hcut : linesAux [] block with
  | nil =>
    rw [hcut, renderLines_nil, hblock] at hrender
    exact absurd hrender.symm (List.append_ne_nil_of_right_ne_nil _ (List.cons_ne_nil _ _))
  | cons first lines =>
    rw [hcut] at hrender hlines
    -- an empty line before the last one would have ended the head
    have hne : ∀ line ∈ lines, line ≠ [] := by
      rintro line hline rfl
      obtain ⟨before, after, rfl⟩ := List.append_of_mem hline
      obtain ⟨text, htext⟩ := exists_renderLines_eq first before
      have hsplit : head = text ++ (headerTerminator ++ (renderLines after ++ crlf)) := by
        rw [hhead, ← hrender, ← List.cons_append, renderLines_append, htext, renderLines_cons]
        simp [crlf, headerTerminator, str]
      apply hmin text.length
      · have hlength := congrArg List.length hsplit
        have hterminator : headerTerminator.length = 4 := by decide
        have hcrlf : crlf.length = 2 := rfl
        simp only [List.length_append] at hlength
        omega
      · rw [hsplit, List.drop_left]
        exact List.prefix_append _ _
    have hfound : headLines head = lines := by
      rw [headLines, hlines, List.cons_append, List.drop_succ_cons, List.drop_zero,
        List.takeWhile_append_of_pos (by simpa using hne)]
      simp
    rw [hfound]
    refine ⟨first, by rw [hrender, ← hhead], fun line hline => ?_⟩
    rw [← hcut] at hline
    exact unbroken_of_mem_linesAux [] unbroken_nil (.left (by simp)) hline

end HttpClient.H1
