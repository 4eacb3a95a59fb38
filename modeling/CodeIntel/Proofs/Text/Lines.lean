import CodeIntel.Text.Lines
import Mathlib.Data.List.SplitBy

/-!
# Lines and their terminators

A text falls into its closed lines: each goes up to the line feed that ends it,
and the last one may have none. Without their terminators they are the lines of
the text.
-/

namespace CodeIntel
namespace Text

/-! # The carriage return of a terminator -/

def bare (line : List Char) : List Char :=
  (dropReturn line.reverse).reverse

theorem bare_append_return (line : List Char) :
    bare (line ++ ['\r']) = line := by
  simp [bare, dropReturn]

theorem bare_of_getLast? {line : List Char} (h : line.getLast? ≠ some '\r') :
    bare line = line := by
  rw [bare]
  cases hline : line.reverse with
  | nil =>
      rw [dropReturn, ← hline, List.reverse_reverse]
      intro rest heq
      exact nomatch heq
  | cons c rest =>
      have hc : c ≠ '\r' := by
        rintro rfl
        apply h
        rw [List.getLast?_eq_head?_reverse, hline]
        rfl
      rw [dropReturn, ← hline, List.reverse_reverse]
      intro rest' heq
      exact hc (List.cons.inj heq).1

theorem bare_cases (line : List Char) :
    (∃ front, line = front ++ ['\r'] ∧ bare line = front) ∨
      (line.getLast? ≠ some '\r' ∧ bare line = line) := by
  by_cases h : line.getLast? = some '\r'
  · rcases List.getLast?_eq_some_iff.mp h with ⟨front, rfl⟩
    exact .inl ⟨front, rfl, bare_append_return front⟩
  · exact .inr ⟨h, bare_of_getLast? h⟩

theorem bare_append (front : List Char) {line : List Char} (h : line ≠ []) :
    bare (front ++ line) = front ++ bare line := by
  rcases List.eq_nil_or_concat line with rfl | ⟨init, c, rfl⟩
  · exact absurd rfl h
  · rw [List.concat_eq_append, ← List.append_assoc]
    by_cases hc : c = '\r'
    · rw [hc, bare_append_return, bare_append_return]
    · have hlast (text : List Char) : bare (text ++ [c]) = text ++ [c] :=
        bare_of_getLast? (by simpa using hc)
      rw [hlast, hlast, List.append_assoc]

theorem not_mem_bare {c : Char} {line : List Char} (h : c ∉ line) :
    c ∉ bare line := by
  rcases bare_cases line with ⟨front, hline, hbare⟩ | ⟨-, hbare⟩
  · rw [hbare]
    exact fun hc => h (hline ▸ List.mem_append_left _ hc)
  · rwa [hbare]

/-! # Line by line -/

/-- A text is one line, or a line feed ends its first line. -/
theorem line_cases (text : List Char) :
    '\n' ∉ text ∨ ∃ line rest, text = line ++ '\n' :: rest ∧ '\n' ∉ line := by
  by_cases h : '\n' ∈ text
  · exact .inr (List.eq_append_cons_of_mem h)
  · exact .inl h

theorem ne_newline {line : List Char} (h : '\n' ∉ line) :
    ∀ c ∈ line, decide (c ≠ '\n') = true :=
  fun _ hc => decide_eq_true fun heq => h (heq ▸ hc)

theorem line_induction {motive : List Char → Prop}
    (last : ∀ line, '\n' ∉ line → motive line)
    (below : ∀ line rest, '\n' ∉ line → motive rest →
      motive (line ++ '\n' :: rest))
    (text : List Char) : motive text := by
  induction hlength :
    text.length using Nat.strong_induction_on generalizing text with
  | _ length ih =>
      rcases line_cases text with h | ⟨line, rest, rfl, h⟩
      · exact last text h
      · refine below line rest h (ih rest.length ?_ rest rfl)
        rw [← hlength, List.length_append, List.length_cons]
        omega

theorem getLast?_below (line : List Char) {rest : List Char} (h : rest ≠ []) :
    (line ++ '\n' :: rest).getLast? = rest.getLast? := by
  rw [← List.singleton_append, ← List.append_assoc,
    List.getLast?_append_of_ne_nil _ h]

theorem linesFrom_append {line : List Char} (h : '\n' ∉ line)
    (current rest : List Char) :
    linesFrom current (line ++ rest) =
      linesFrom (line.reverse ++ current) rest := by
  induction line generalizing current with
  | nil =>
      rfl
  | cons c line ih =>
      rw [List.mem_cons, not_or] at h
      rw [List.cons_append, linesFrom_cons (Ne.symm h.1), ih h.2,
        List.reverse_cons, List.append_assoc, List.singleton_append]

theorem lines_below {line : List Char} (h : '\n' ∉ line) (rest : List Char) :
    lines (line ++ '\n' :: rest) = bare line :: lines rest := by
  rw [lines, linesFrom_append h, linesFrom_newline, List.append_nil]
  rfl

theorem lines_of_not_mem {line : List Char} (h : '\n' ∉ line)
    (hne : line ≠ []) :
    lines line = [line] := by
  have hreverse : line.reverse.isEmpty = false := by simpa using hne
  rw [lines, ← List.append_nil line, linesFrom_append h, linesFrom_nil,
    List.append_nil, hreverse, List.append_nil, List.reverse_reverse]
  rfl

theorem lines_ne_nil {text : List Char} (h : text ≠ []) : lines text ≠ [] := by
  rcases line_cases text with hone | ⟨line, rest, rfl, hline⟩
  · rw [lines_of_not_mem hone h]
    exact List.cons_ne_nil _ _
  · rw [lines_below hline]
    exact List.cons_ne_nil _ _

theorem not_mem_of_mem_lines {text line : List Char} (h : line ∈ lines text) :
    '\n' ∉ line := by
  induction text using line_induction with
  | last text hlast =>
      by_cases hne : text = []
      · rw [hne, lines_nil] at h
        exact absurd h List.not_mem_nil
      · rw [lines_of_not_mem hlast hne, List.mem_singleton] at h
        rwa [h]
  | below first rest hfirst ih =>
      rw [lines_below hfirst, List.mem_cons] at h
      cases h with
      | inl heq =>
          rw [heq]
          exact not_mem_bare hfirst
      | inr hmem =>
          exact ih hmem

/-! # Closed lines -/

def closedLines (text : List Char) : List (List Char) :=
  text.splitBy fun c _ => c ≠ '\n'

def opened (raw : List Char) : List Char :=
  if raw.getLast? = some '\n' then bare raw.dropLast else raw

theorem flatten_closedLines (text : List Char) :
    (closedLines text).flatten = text :=
  List.flatten_splitBy _ text

theorem isChain_line {line : List Char} (h : '\n' ∉ line) (c : Char) :
    (line ++ [c]).IsChain fun d _ => decide (d ≠ '\n') = true := by
  induction line with
  | nil =>
      exact List.isChain_singleton c
  | cons d line ih =>
      rw [List.mem_cons, not_or] at h
      exact List.isChain_cons.mpr ⟨fun _ _ =>
        decide_eq_true (Ne.symm h.1), ih h.2⟩

theorem closedLines_below {line : List Char} (h : '\n' ∉ line)
    (rest : List Char) :
    closedLines (line ++ '\n' :: rest) =
      (line ++ ['\n']) :: closedLines rest := by
  rw [← List.singleton_append, ← List.append_assoc, closedLines,
    List.splitBy_append, List.splitBy_of_isChain (by simp) (isChain_line h _)]
  · rfl
  · simp

theorem closedLines_of_not_mem {line : List Char} (h : '\n' ∉ line)
    (hne : line ≠ []) :
    closedLines line = [line] := by
  rcases List.eq_nil_or_concat line with rfl | ⟨init, c, rfl⟩
  · exact absurd rfl hne
  · rw [List.concat_eq_append] at h ⊢
    exact List.splitBy_of_isChain (by simp)
      (isChain_line (fun hmem => h (List.mem_append_left _ hmem)) c)

theorem opened_below (line : List Char) :
    opened (line ++ ['\n']) = bare line := by
  rw [opened, if_pos List.getLast?_concat, List.dropLast_concat]

theorem opened_of_not_mem {line : List Char} (h : '\n' ∉ line) :
    opened line = line :=
  if_neg fun hlast => h (List.mem_of_getLast? hlast)

theorem lines_eq_map_opened (text : List Char) :
    lines text = (closedLines text).map opened := by
  induction text using line_induction with
  | last line h =>
      by_cases hne : line = []
      · rw [hne]
        rfl
      · rw [lines_of_not_mem h hne, closedLines_of_not_mem h hne,
          List.map_singleton, opened_of_not_mem h]
  | below line rest h ih =>
      rw [lines_below h, closedLines_below h, List.map_cons, opened_below, ih]

theorem closedLines_flatMap (front : List Char) (hfront : '\n' ∉ front)
    {lines : List (List Char)} (h : ∀ line ∈ lines, '\n' ∉ line) :
    closedLines (lines.flatMap (· ++ (front ++ ['\n']))) =
      lines.map (· ++ (front ++ ['\n'])) := by
  induction lines with
  | nil =>
      rfl
  | cons line rest ih =>
      rcases List.forall_mem_cons.mp h with ⟨hline, hrest⟩
      have hclosed : '\n' ∉ line ++ front := by
        rw [List.mem_append, not_or]
        exact ⟨hline, hfront⟩
      rw [List.flatMap_cons, List.map_cons, ← ih hrest, ← List.append_assoc,
        List.append_assoc _ _ _, List.singleton_append,
        closedLines_below hclosed]

end Text
end CodeIntel
