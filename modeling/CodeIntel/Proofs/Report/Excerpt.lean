import CodeIntel.Report.Excerpt
import Mathlib.Data.List.Intervals

/-!
# Lines around a line

An excerpt shows the lines around one of the lines of a text. A context that is
larger than what is in front of that line starts with the first line. The end of
the excerpt is a sum of 64 bits, though, which does not stop at the largest
number: from the context on at which it wraps around, the excerpt breaks off in
front of the line that it is about.
-/

namespace CodeIntel
namespace Excerpt

/-! # Lines by their indices -/

theorem drop_take_linesOf {content : String} {stop : Nat}
    (h : stop ≤ (Text.linesOf content).length) (first : Nat) :
    ((Text.linesOf content).take stop).drop first =
      (List.Ico first stop).map (lineAt content) := by
  apply List.ext_getElem
  · rw [List.length_drop, List.length_take, Nat.min_eq_left h, List.length_map,
      List.Ico.length]
  · intro i hi hi'
    have hlt : first + i < (Text.linesOf content).length := by
      rw [List.length_drop, List.length_take] at hi
      omega
    simp [lineAt, List.Ico, hlt]

theorem mapIdx_Ico {α : Type} (render : Nat → String → α) (line : Nat → String)
    (first stop : Nat) : ((List.Ico first stop).map line).mapIdx
      (fun i text => render (first + i) text) =
        (List.Ico first stop).map fun i => render i (line i) := by
  apply List.ext_getElem
  · simp
  · intro i hi hi'
    simp [List.Ico]

/-! # Rows -/

def rows (render : Nat → String) (first last : Nat) : String :=
  String.join ((List.Ico first (last + 1)).map render)

theorem rows_append (render : Nat → String) {first middle last : Nat}
    (hfirst : first ≤ middle + 1) (hlast : middle ≤ last) :
    rows render first middle ++ rows render (middle + 1) last =
      rows render first last := by
  have hnumbers := List.Ico.append_consecutive hfirst (Nat.succ_le_succ hlast)
  rw [rows, rows, rows, ← String.join_append, ← List.map_append, hnumbers]

theorem rows_cons (render : Nat → String) {first last : Nat}
    (h : first ≤ last) :
    rows render first last = render first ++ rows render (first + 1) last := by
  rw [rows, List.Ico.eq_cons (Nat.lt_succ_of_le h), List.map_cons,
    String.join_cons]
  rfl

theorem rows_congr {render render' : Nat → String} {first last : Nat}
    (h : ∀ number, first ≤ number → number ≤ last →
      render number = render' number) :
    rows render first last = rows render' first last := by
  rw [rows, rows]
  congr 1
  apply List.map_congr_left
  intro number hnumber
  rw [List.Ico.mem, Nat.lt_succ_iff] at hnumber
  exact h number hnumber.1 hnumber.2

def row (numbers : Bool) (content mark : String) (number : Nat) : String :=
  let text := lineAt content (number - 1)
  if numbers then s!"{mark} {Numeral.padded 4 number} | {text}\n"
  else s!"{mark} {text}\n"

/-- The rows from one number to another with a mark at `line` and nowhere
else. -/
def markedRows (numbers : Bool) (content : String) (first line last : Nat) :
    String :=
  rows (row numbers content " ") first (line - 1) ++
    (row numbers content ">" line ++ rows (row numbers content " ")
      (line + 1) last)

section Rows

variable {numbers : Bool} {content : String} {line first last : Nat}

theorem row_ne_empty (mark : String) (number : Nat) :
    row numbers content mark number ≠ "" := by
  have hclosed : ∃ front, row numbers content mark number = front ++ "\n" := by
    unfold row
    split
    · exact ⟨_, rfl⟩
    · exact ⟨_, rfl⟩
  rcases hclosed with ⟨front, hrow⟩
  rw [hrow]
  intro h
  exact absurd (String.append_eq_empty_iff.mp h).2 (by decide)

def rowAround (numbers : Bool) (content : String) (line number : Nat) :
    String :=
  shownLine numbers line number (lineAt content (number - 1))

theorem rowAround_self :
    rowAround numbers content line line = row numbers content ">" line := by
  rw [rowAround, shownLine, if_pos rfl]
  rfl

theorem rowAround_of_ne {number : Nat} (h : number ≠ line) :
    rowAround numbers content line number = row numbers content " " number := by
  rw [rowAround, shownLine, if_neg h]
  rfl

theorem rows_of_apart (h : last < line ∨ line < first) :
    rows (rowAround numbers content line) first last =
      rows (row numbers content " ") first last :=
  rows_congr fun _ _ _ => rowAround_of_ne (by omega)

theorem rows_of_within (hline : 1 ≤ line) (hfirst : first ≤ line)
    (hlast : line ≤ last) :
    rows (rowAround numbers content line) first last =
      markedRows numbers content first line last := by
  have hpred : line - 1 + 1 = line := Nat.sub_add_cancel hline
  have hfront : line - 1 < line := by omega
  rw [← rows_append _ (hpred.symm ▸ hfirst)
    (Nat.le_trans (Nat.le_of_lt hfront) hlast), hpred,
    rows_cons _ hlast, rowAround_self, rows_of_apart (.inl hfront),
    rows_of_apart (.inr (Nat.lt_succ_self line)), markedRows]

theorem markedRows_ne_rows {middle : Nat} (hfirst : first ≤ middle + 1)
    (h : middle < line) :
    markedRows numbers content first line last ≠
      rows (row numbers content " ") first middle := by
  intro heq
  rw [markedRows, ← rows_append _ hfirst (Nat.le_sub_one_of_lt h),
    String.append_assoc] at heq
  have hrest := String.append_eq_left_iff.mp heq
  have hmarked :=
    (String.append_eq_empty_iff.mp (String.append_eq_empty_iff.mp hrest).2).1
  exact row_ne_empty ">" line hmarked

end Rows

/-! # The window -/

section Window

variable {content : String} {line context : Nat}

/-- What an excerpt shows, with the numbers of its rows from one. -/
theorem around_eq_rows (context : Nat) (numbers : Bool) (hline : 1 ≤ line)
    (hlast : line ≤ (Text.linesOf content).length) :
    around content line context numbers =
      rows (rowAround numbers content line) (max 1 (line - context))
        (window (Text.linesOf content).length (line - 1) context).2 := by
  have hstop : (window (Text.linesOf content).length (line - 1) context).2 ≤
      (Text.linesOf content).length := Nat.min_le_right _ _
  have hfirst :
      (window (Text.linesOf content).length (line - 1) context).1 + 1 =
      max 1 (line - context) := by
    rw [window]
    omega
  have hpred : line - 1 + 1 = line := Nat.sub_add_cancel hline
  rw [around, if_neg (by omega)]
  generalize window (Text.linesOf content).length (line - 1) context =
    shown at hstop hfirst ⊢
  obtain ⟨first, stop⟩ := shown
  dsimp only at hstop hfirst ⊢
  rw [drop_take_linesOf hstop, mapIdx_Ico fun i =>
    shownLine numbers (line - 1 + 1) (i + 1), hpred,
    rows, ← hfirst, ← List.Ico.map_add, List.map_map]
  congr 1
  apply List.map_congr_left
  intro i _
  rw [Function.comp_apply, rowAround, Nat.add_comm 1 i, Nat.add_sub_cancel]

theorem window_stop_of_fits (n : Nat) (hline : 1 ≤ line)
    (h : line + context < wordSize) :
    (window n (line - 1) context).2 = min n (line + context) := by
  have hsum : line - 1 + context + 1 = line + context := by omega
  rw [window, hsum, Nat.mod_eq_of_lt h, Nat.min_comm]

theorem window_stop_of_wraps {n : Nat} (hline : 1 ≤ line) (hlast : line ≤ n)
    (hword : line < wordSize) (hcontext : context < wordSize)
    (h : wordSize ≤ line + context) :
    (window n (line - 1) context).2 = line + context - wordSize := by
  have hsum : line - 1 + context + 1 = line + context := by omega
  have hrest : (line + context) % wordSize = line + context - wordSize := by
    rw [Nat.mod_eq_sub_mod h, Nat.mod_eq_of_lt (by omega)]
  rw [window, hsum, hrest]
  exact Nat.min_eq_left (by omega)

end Window

/-- As long as line and context add up to a number of 64 bits, an excerpt has
one row for each line of the text that is within the context, with its number,
and its own line is the only one that is marked. Where the sum does not fit, the
excerpt ends in front of its own line, and nothing is marked. Its window lies
within the text in either case. -/
theorem around_shows_window {content : String} {line context : Nat}
    (numbers : Bool) (hline : 1 ≤ line)
    (hlast : line ≤ (Text.linesOf content).length)
    (hword : line < Nat.pow 2 32) (hcontext : context < wordSize) :
    let n := (Text.linesOf content).length
    let shown := window n (line - 1) context
    (shown.1 ≤ shown.2 ∧ shown.2 ≤ n) ∧
    (around content line context numbers =
        markedRows numbers content (max 1 (line - context)) line
          (min n (line + context)) ↔
      line + context < wordSize) ∧
    (wordSize ≤ line + context → around content line context numbers =
      rows (row numbers content " ") 1 (line + context - wordSize)) := by
  dsimp only
  have haround := around_eq_rows context numbers hline hlast
  rcases Nat.lt_or_ge (line + context) wordSize with hfits | hwraps
  · have hstop := window_stop_of_fits (Text.linesOf content).length hline hfits
    refine ⟨⟨?_, Nat.min_le_right _ _⟩, iff_of_true ?_ hfits,
      fun h => absurd hfits (by omega)⟩
    · rw [hstop, window]
      omega
    · rw [haround, hstop]
      exact rows_of_within hline (by omega) (by omega)
  · have hlarge : Nat.pow 2 32 + Nat.pow 2 32 ≤ wordSize := by decide
    have hstop := window_stop_of_wraps hline hlast (by omega) hcontext hwraps
    -- a context of this size reaches beyond the first line
    have hfirst : line ≤ context := by omega
    have hshown : around content line context numbers =
        rows (row numbers content " ") 1 (line + context - wordSize) := by
      rw [haround, hstop, Nat.sub_eq_zero_of_le hfirst]
      exact rows_of_apart (.inl (by omega))
    refine ⟨⟨?_, Nat.min_le_right _ _⟩, iff_of_false ?_ (by omega),
      fun _ => hshown⟩
    · rw [hstop, window]
      omega
    · rw [hshown, Nat.sub_eq_zero_of_le hfirst]
      exact (markedRows_ne_rows (by omega) (by omega)).symm

/-- The largest context for which the sum fits shows the whole text. -/
theorem around_shows_both_lines :
    2 ≤ (Text.linesOf "a\nb\n").length ∧ 2 + 18446744073709551613 < wordSize ∧
    around "a\nb\n" 2 18446744073709551613 true =
      markedRows true "a\nb\n" (max 1 (2 - 18446744073709551613)) 2
        (min (Text.linesOf "a\nb\n").length (2 + 18446744073709551613)) := by
  have hlast : 2 ≤ (Text.linesOf "a\nb\n").length := by decide
  have hfits : 2 + 18446744073709551613 < wordSize := by decide
  refine ⟨hlast, hfits, ?_⟩
  exact (around_shows_window true (by decide) hlast (by decide)
    (by decide)).2.1.mpr hfits

/-- With the largest context of all nothing is left of the two lines. -/
theorem largest_context_shows_nothing :
    1 ≤ (Text.linesOf "a\nb\n").length ∧ 18446744073709551615 < wordSize ∧
    around "a\nb\n" 1 18446744073709551615 true = "" ∧
    markedRows true "a\nb\n" (max 1 (1 - 18446744073709551615)) 1
        (min (Text.linesOf "a\nb\n").length (1 + 18446744073709551615)) =
      ">    1 | a\n     2 | b\n" := by
  decide

end Excerpt
end CodeIntel
