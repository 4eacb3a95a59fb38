import CodeIntel.Proofs.Edit.Untouched

/-!
# The final line feed

A text that ends with a line feed still does so after edits of its lines, unless
nothing is left of it. A text that does not keeps that, too, as long as its last
line stays or another line with characters takes its place. A blank line that
comes last cannot be told from the line feed that closes the line in front of
it: then the text ends with a line feed that it did not have before.
-/

namespace CodeIntel
namespace LineEdit

/-! # The end of lines put together -/

theorem getLast?_ending (text : List Char) :
    (ending text).getLast? = some '\n' := by
  rcases ending_cases text with ⟨-, hending⟩ | ⟨-, hending⟩ <;>
    rw [hending] <;> rfl

theorem ending_ne_nil (text : List Char) : ending text ≠ [] := by
  rcases ending_cases text with ⟨-, hending⟩ | ⟨-, hending⟩ <;>
    rw [hending] <;> decide

theorem getLast?_flatMap_ending (text : List Char) {lines : List (List Char)}
    (h : lines ≠ []) :
    (lines.flatMap (· ++ ending text)).getLast? = some '\n' := by
  rcases List.eq_nil_or_concat lines with rfl | ⟨init, last, rfl⟩
  · exact absurd rfl h
  · rw [List.concat_eq_append, List.flatMap_append, List.flatMap_singleton,
      ← List.append_assoc,
      List.getLast?_append_of_ne_nil _ (ending_ne_nil text), getLast?_ending]

theorem getLast?_intercalate (text : List Char) {lines : List (List Char)}
    (hlines : ∀ line ∈ lines, '\n' ∉ line)
    (hne : (ending text).intercalate lines ≠ []) :
    ((ending text).intercalate lines).getLast? = some '\n' ↔
    lines.getLast? = some [] := by
  rcases List.eq_nil_or_concat lines with rfl | ⟨init, last, rfl⟩
  · exact absurd rfl hne
  · rw [List.concat_eq_append] at hlines hne ⊢
    rw [intercalate_concat] at hne ⊢
    rw [List.getLast?_concat, Option.some.injEq]
    by_cases hlast : last = []
    · subst hlast
      rw [List.append_nil] at hne ⊢
      refine iff_of_true (getLast?_flatMap_ending text ?_) rfl
      rintro rfl
      exact hne rfl
    · rw [List.getLast?_append_of_ne_nil _ hlast]
      refine iff_of_false ?_ hlast
      intro hfeed
      exact hlines last (by simp) (List.mem_of_getLast? hfeed)

theorem getLast?_joinLines {text : List Char} {lines : List (List Char)}
    (htext : text ≠ []) (hlines : ∀ line ∈ lines, '\n' ∉ line)
    (hne : joinLines (ending text) (closes text) lines ≠ []) :
    (joinLines (ending text) (closes text) lines).getLast? = some '\n' ↔
      text.getLast? = some '\n' ∨ lines.getLast? = some [] := by
  have hcloses : closes text = true ↔ text.getLast? = some '\n' :=
    closes_iff.trans (or_iff_right htext)
  cases h : closes text with
  | true =>
      rw [h, joinLines_closed] at hne
      rw [joinLines_closed]
      refine iff_of_true (getLast?_flatMap_ending text ?_) (.inl (hcloses.mp h))
      rintro rfl
      exact hne rfl
  | false =>
      rw [h, joinLines_open] at hne
      have hopen : text.getLast? ≠ some '\n' := by simpa [h] using hcloses
      rw [joinLines_open, getLast?_intercalate text hlines hne,
        or_iff_right hopen]

/-! # The last line -/

theorem ne_nil_of_last_line {text line : List Char}
    (h : text.getLast? ≠ some '\n')
    (hline : (Text.lines text).getLast? = some line) : line ≠ [] := by
  induction text using Text.line_induction with
  | last text htext =>
      by_cases hne : text = []
      · rw [hne, Text.lines_nil] at hline
        exact nomatch hline
      · rw [Text.lines_of_not_mem htext hne] at hline
        cases hline
        exact hne
  | below first rest hfirst ih =>
      have hrest : rest ≠ [] := by
        rintro rfl
        exact h List.getLast?_concat
      rw [Text.getLast?_below first hrest] at h
      rw [Text.lines_below hfirst, ← List.singleton_append,
        List.getLast?_append_of_ne_nil _ (Text.lines_ne_nil hrest)] at hline
      exact ih h hline

variable {edits : List LineEdit} {number : Nat}

theorem pass_of_behind
    (h : ∀ e ∈ edits, e.startLine ≤ e.endLine ∧ e.endLine < number)
    (lines : List (List Char)) : pass edits number lines = lines := by
  induction edits with
  | nil =>
      exact pass_nil number lines
  | cons e rest ih =>
      rcases List.forall_mem_cons.mp h with ⟨⟨hforward, hbehind⟩, hrest⟩
      rw [pass_behind hforward hbehind, ih hrest]

/-- A last line that all edits end in front of stays the last line. -/
theorem getLast?_pass {lines : List (List Char)} {last : List Char}
    (h : ∀ e ∈ edits, e.startLine ≤ e.endLine ∧
      e.endLine < number + lines.length) :
    (pass edits number (lines ++ [last])).getLast? = some last := by
  induction lines generalizing number with
  | nil =>
      have hpass : pass edits number [last] = [last] := pass_of_behind h [last]
      rw [List.nil_append, hpass]
      rfl
  | cons line rest ih =>
      have hrest :
          (pass edits (number + 1) (rest ++ [last])).getLast? = some last := by
        apply ih
        intro e he
        have hend := h e he
        rw [List.length_cons] at hend
        omega
      rw [List.cons_append, pass, List.getLast?_append, hrest]
      rfl

/-- A text ends with a line feed after edits of its lines iff it did before or a
blank line comes last now. If all edits end in front of the last line, it is the
former. -/
theorem apply_keeps_final_newline {content updated : String}
    {summary : EditSummary} (hcontent : content ≠ "")
    (h : apply content edits = .ok (updated, summary))
    (hupdated : updated ≠ "") :
    (updated.toList.getLast? = some '\n' ↔ content.toList.getLast? = some '\n' ∨
      (pass edits 1 (Text.lines content.toList)).getLast? = some []) ∧
    ((∀ e ∈ edits, e.endLine < (Text.lines content.toList).length) →
      (updated.toList.getLast? = some '\n' ↔
        content.toList.getLast? = some '\n')) := by
  have htext : content.toList ≠ [] := by simpa using hcontent
  rcases applyTo_eq_ok_iff.mp (apply_eq_ok_iff.mp h) with ⟨hsequence, heq, -⟩
  have hne : updated.toList ≠ [] := by simpa using hupdated
  have hends : updated.toList.getLast? = some '\n' ↔
      content.toList.getLast? = some '\n' ∨
      (pass edits 1 (Text.lines content.toList)).getLast? = some [] := by
    rw [heq] at hne ⊢
    exact getLast?_joinLines htext (not_mem_of_mem_pass fun _ =>
      Text.not_mem_of_mem_lines) hne
  refine ⟨hends, fun hbefore => ?_⟩
  rw [hends, or_iff_left_iff_imp]
  intro hblank
  by_contra hopen
  rcases List.eq_nil_or_concat (Text.lines content.toList) with
    hnil | ⟨init, last, hlines⟩
  · exact Text.lines_ne_nil htext hnil
  · rw [List.concat_eq_append] at hlines
    have hlast :
        (pass edits 1 (Text.lines content.toList)).getLast? = some last := by
      rw [hlines]
      apply getLast?_pass
      intro e he
      have hvalid := hsequence.valid e ((ordered_perm edits).mem_iff.mpr he)
      have hend := hbefore e he
      rw [hlines, List.length_append, List.length_singleton] at hend
      omega
    rw [hlast, Option.some.injEq] at hblank
    exact ne_nil_of_last_line hopen
      (by rw [hlines, List.getLast?_concat]) hblank

theorem apply_keeps_final_newline_open :
    apply "a\nb\nc" [⟨2, 2, "B\n\n"⟩, ⟨1, 1, ""⟩] = .ok ("B\n\nc", ⟨2, 2, 2⟩) ∧
    ("B\n\nc".toList.getLast? = some '\n' ↔
      "a\nb\nc".toList.getLast? = some '\n') := by
  have h : apply "a\nb\nc" [⟨2, 2, "B\n\n"⟩, ⟨1, 1, ""⟩] =
      .ok ("B\n\nc", ⟨2, 2, 2⟩) := by decide
  exact ⟨h, (apply_keeps_final_newline (by decide) h (by decide)).2 (by decide)⟩

/-- A text that does not end with a line feed does so once a blank line comes
last. -/
theorem final_newline_appears :
    apply "a\nb" [⟨2, 2, "B\n\n"⟩] = .ok ("a\nB\n", ⟨1, 1, 2⟩) ∧
    "a\nb".toList.getLast? ≠ some '\n' ∧
    "a\nB\n".toList.getLast? = some '\n' := by
  decide

end LineEdit
end CodeIntel
