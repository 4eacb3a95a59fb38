import CodeIntel.Proofs.Edit.WholeLines
import CodeIntel.Proofs.Text.Lines

/-!
# Lines that no edit covers

A text is taken apart into lines without their terminators and put together
again with one kind of line ending. So a line that no edit covers keeps its
characters and its place among the others, and it keeps its terminator if that
is the line ending of the text. In a text that mixes line endings the shorter
one grows into the longer one.
-/

namespace CodeIntel
namespace LineEdit

/-! # The lines in question -/

/-- The lines with a line feed at their end that no edit covers. The first line
has the given number. -/
def untouched (edits : List LineEdit) (number : Nat) :
    List (List Char) → List (List Char)
  | [] => []
  | raw :: rest =>
    if raw.getLast? = some '\n' ∧ isCovered edits number = false then
      raw :: untouched edits (number + 1) rest
    else untouched edits (number + 1) rest

def reclosed (ending raw : List Char) : List Char :=
  Text.opened raw ++ ending

variable {edits : List LineEdit} {number : Nat}

theorem mem_untouched {raw : List Char} {raws : List (List Char)}
    (h : raw ∈ untouched edits number raws) :
    raw ∈ raws ∧ raw.getLast? = some '\n' := by
  induction raws generalizing number with
  | nil =>
      exact absurd h List.not_mem_nil
  | cons first rest ih =>
      rw [untouched] at h
      split at h
      · next hfirst =>
          cases List.mem_cons.mp h with
          | inl heq =>
              rw [heq]
              exact ⟨List.mem_cons_self, hfirst.1⟩
          | inr hmem =>
              exact ⟨List.mem_cons_of_mem first (ih hmem).1, (ih hmem).2⟩
      · exact ⟨List.mem_cons_of_mem first (ih h).1, (ih h).2⟩

theorem untouched_sublist_pass (edits : List LineEdit) (number : Nat)
    (raws : List (List Char)) :
    ((untouched edits number raws).map Text.opened).Sublist
      (pass edits number (raws.map Text.opened)) := by
  induction raws generalizing number with
  | nil =>
      exact List.nil_sublist _
  | cons raw rest ih =>
      rw [untouched, List.map_cons, pass, List.append_assoc]
      split
      · next hraw =>
          rw [hraw.2, List.map_cons]
          exact ((ih _).cons_cons _).trans (List.sublist_append_right _ _)
      · exact ((ih _).trans (List.sublist_append_right _ _)).trans
          (List.sublist_append_right _ _)

theorem not_mem_of_mem_pass {lines : List (List Char)}
    (hlines : ∀ line ∈ lines, '\n' ∉ line) :
    ∀ line ∈ pass edits number lines, '\n' ∉ line := by
  have hplaced (number : Nat) :
      ∀ line ∈ placedAt edits number, '\n' ∉ line := by
    intro line hline
    rcases List.mem_flatMap.mp hline with ⟨e, -, hmem⟩
    exact Text.not_mem_of_mem_lines hmem
  induction lines generalizing number with
  | nil =>
      exact hplaced number
  | cons first rest ih =>
      rcases List.forall_mem_cons.mp hlines with ⟨hfirst, hrest⟩
      intro line hline
      rw [pass, List.mem_append, List.mem_append] at hline
      rcases hline with (hline | hline) | hline
      · exact hplaced number line hline
      · split at hline
        · exact absurd hline List.not_mem_nil
        · rwa [List.mem_singleton.mp hline]
      · exact ih hrest line hline

/-! # Line endings -/

theorem ending_cases (text : List Char) :
    (hasReturnNewline text = true ∧ ending text = ['\r', '\n']) ∨
      (hasReturnNewline text = false ∧ ending text = ['\n']) := by
  cases h : hasReturnNewline text with
  | true =>
      exact .inl ⟨rfl, if_pos h⟩
  | false =>
      exact .inr ⟨rfl, if_neg (by simp [h])⟩

theorem closes_iff {text : List Char} :
    closes text = true ↔ text = [] ∨ text.getLast? = some '\n' := by
  simp [closes]

theorem hasReturnNewline_cons {text : List Char}
    (h : hasReturnNewline text = true) (c : Char) :
    hasReturnNewline (c :: text) = true := by
  rw [hasReturnNewline.eq_def]
  split
  · rfl
  · next heq =>
      rwa [← (List.cons.inj heq).2]
  · next heq =>
      exact nomatch heq

theorem hasReturnNewline_append (front : List Char) {text : List Char}
    (h : hasReturnNewline text = true) :
    hasReturnNewline (front ++ text) = true := by
  induction front with
  | nil =>
      exact h
  | cons c front ih =>
      exact hasReturnNewline_cons ih c

theorem reclosed_cases {text raw : List Char}
    (hmem : raw ∈ Text.closedLines text) (hlast : raw.getLast? = some '\n') :
    reclosed (ending text) raw = raw ∨
      hasReturnNewline text = true ∧ ∃ line, line.getLast? ≠ some '\r' ∧
      raw = line ++ ['\n'] ∧
        reclosed (ending text) raw = line ++ ['\r', '\n'] := by
  rcases List.getLast?_eq_some_iff.mp hlast with ⟨line, rfl⟩
  rw [reclosed, Text.opened_below]
  rcases Text.bare_cases line with ⟨front, rfl, hbare⟩ | ⟨hreturn, hbare⟩
  · have hinfix := List.infix_of_mem_flatten hmem
    rw [Text.flatten_closedLines] at hinfix
    rcases hinfix with ⟨before, behind, htext⟩
    have hlonger : hasReturnNewline text = true := by
      rw [← htext, List.append_assoc, List.append_assoc, List.append_assoc]
      exact hasReturnNewline_append before (hasReturnNewline_append front rfl)
    left
    rw [hbare, ending, if_pos hlonger, List.append_assoc, List.singleton_append]
  · rcases ending_cases text with ⟨hlonger, hending⟩ | ⟨-, hending⟩
    · right
      refine ⟨hlonger, line, hreturn, rfl, ?_⟩
      rw [hbare, hending]
    · left
      rw [hbare, hending]

/-! # The lines of the result -/

theorem intercalate_concat (ending : List Char) (lines : List (List Char))
    (last : List Char) :
    ending.intercalate (lines ++ [last]) = lines.flatMap (· ++ ending) ++
      last := by
  induction lines with
  | nil =>
      exact List.intercalate_singleton
  | cons line rest ih =>
      rw [List.cons_append, List.intercalate_cons_of_ne_nil (by simp), ih,
        List.flatMap_cons]
      simp only [List.append_assoc]

theorem joinLines_closed (ending : List Char) (lines : List (List Char)) :
    joinLines ending true lines = lines.flatMap (· ++ ending) := by
  rcases List.eq_nil_or_concat lines with rfl | ⟨init, last, rfl⟩
  · rfl
  · rw [List.concat_eq_append, joinLines, intercalate_concat,
      List.flatMap_append, List.flatMap_singleton, List.append_assoc]
    simp

theorem joinLines_open (ending : List Char) (lines : List (List Char)) :
    joinLines ending false lines = ending.intercalate lines := by
  rw [joinLines, Bool.false_and, if_neg Bool.false_ne_true, List.append_nil]

theorem closedLines_joinLines (text : List Char) {lines : List (List Char)}
    (hne : lines ≠ []) (hlines : ∀ line ∈ lines, '\n' ∉ line) :
    Text.closedLines (joinLines (ending text) (closes text) lines ++
      if closes text then []
      else ending text) = lines.map (· ++ ending text) := by
  have hclosed : joinLines (ending text) (closes text) lines ++
      (if closes text then [] else ending text) =
        lines.flatMap (· ++ ending text) := by
    cases closes text with
    | true =>
        rw [joinLines_closed, if_pos rfl, List.append_nil]
    | false =>
        rcases List.eq_nil_or_concat lines with rfl | ⟨init, last, rfl⟩
        · exact absurd rfl hne
        · rw [joinLines_open, if_neg Bool.false_ne_true, List.concat_eq_append,
            intercalate_concat, List.flatMap_append, List.flatMap_singleton,
            List.append_assoc]
  rw [hclosed]
  rcases ending_cases text with ⟨-, hending⟩ | ⟨-, hending⟩
  · rw [hending]
    exact Text.closedLines_flatMap ['\r'] (by decide) hlines
  · rw [hending]
    exact Text.closedLines_flatMap [] List.not_mem_nil hlines

theorem untouched_sublist_closedLines {text updated : List Char}
    {summary : EditSummary} (h : applyTo text edits = .ok (updated, summary)) :
    ((untouched edits 1 (Text.closedLines text)).map
      (reclosed (ending text))).Sublist (Text.closedLines
      (updated ++ if closes text then [] else ending text)) := by
  rcases applyTo_eq_ok_iff.mp h with ⟨-, rfl, -⟩
  have hsublist := untouched_sublist_pass edits 1 (Text.closedLines text)
  rw [← Text.lines_eq_map_opened] at hsublist
  by_cases hne : pass edits 1 (Text.lines text) = []
  · rw [hne, List.sublist_nil, List.map_eq_nil_iff] at hsublist
    rw [hsublist]
    exact List.nil_sublist _
  · rw [closedLines_joinLines text hne (not_mem_of_mem_pass fun _ =>
      Text.not_mem_of_mem_lines)]
    have hclosed := hsublist.map (· ++ ending text)
    rwa [List.map_map] at hclosed

/-- The lines that no edit covers stand in the result, in their order, each
closed by the line ending of the text. That is how each was closed before,
unless the text mixes line endings. Where the last line of the text was not
closed, that of the result is not either. -/
theorem apply_keeps_untouched {content updated : String} {summary : EditSummary}
    (h : apply content edits = .ok (updated, summary)) :
    ((untouched edits 1 (Text.closedLines content.toList)).map
        (reclosed (ending content.toList))).Sublist
      (Text.closedLines
        (updated.toList ++ if closes content.toList then []
          else ending content.toList)) ∧
    ∀ raw ∈ untouched edits 1 (Text.closedLines content.toList),
      reclosed (ending content.toList) raw = raw ∨
        hasReturnNewline content.toList = true ∧
        ∃ line, line.getLast? ≠ some '\r' ∧
          raw = line ++ ['\n'] ∧ reclosed (ending content.toList) raw =
            line ++ ['\r', '\n'] := by
  constructor
  · exact untouched_sublist_closedLines (apply_eq_ok_iff.mp h)
  · intro raw hraw
    rcases mem_untouched hraw with ⟨hmem, hlast⟩
    exact reclosed_cases hmem hlast

theorem apply_keeps_untouched_mixed :
    apply "a\nb\r\nc" [⟨2, 2, "B"⟩] = .ok ("a\r\nB\r\nc", ⟨1, 1, 1⟩) ∧
    ([['a', '\n']].map (reclosed ['\r', '\n'])).Sublist
      [['a', '\r', '\n'], ['B', '\r', '\n'], ['c', '\r', '\n']] := by
  have h : apply "a\nb\r\nc" [⟨2, 2, "B"⟩] =
      .ok ("a\r\nB\r\nc", ⟨1, 1, 1⟩) := by decide
  exact ⟨h, (apply_keeps_untouched h).1⟩

/-- A mixed text gets one line ending throughout, and a text without a final
line feed stays one when its last line is taken away: in both, a line in front
of the edit loses its terminator. -/
theorem untouched_line_changes :
    (apply "a\nb\r\n" [⟨2, 2, "B"⟩] = .ok ("a\r\nB\r\n", ⟨1, 1, 1⟩) ∧
      ['a', '\n'] ∈ untouched [⟨2, 2, "B"⟩] 1
        (Text.closedLines "a\nb\r\n".toList) ∧
      ¬ ['a', '\n'] <:+: "a\r\nB\r\n".toList) ∧
    (apply "a\nb" [⟨2, 2, ""⟩] = .ok ("a", ⟨1, 1, 0⟩) ∧
      ['a', '\n'] ∈ untouched [⟨2, 2, ""⟩] 1 (Text.closedLines "a\nb".toList) ∧
      ¬ ['a', '\n'] <:+: "a".toList) := by
  decide

end LineEdit
end CodeIntel
