import CodeIntel.Proofs.Edit.TextEdits

/-!
# Ranges that run backwards

The ends of a range are compared by the places they stand for. A range that ends
in front of its start is refused, unless both ends stand for one place: on one
line, of which no character starts from the column of the end on up to that of
the start. Such a range is empty, and its edit inserts at that place.
-/

namespace CodeIntel

/-! # Columns that stand for one place -/

namespace Offset

/-- A character of the line starts at the first column or behind it, but in
front of the second. -/
def StartsBetween (column column' : Nat) (line : List Char) : Prop :=
  ∃ front c rest, line = front ++ c :: rest ∧
    column ≤ Text.units front ∧ Text.units front < column'

theorem not_startsBetween_nil (column column' : Nat) :
    ¬ StartsBetween column column' [] := by
  rintro ⟨front, c, rest, hline, -⟩
  simp at hline

theorem startsBetween_cons {column column' : Nat} {d : Char}
    {line : List Char} :
    StartsBetween column column' (d :: line) ↔ (column = 0 ∧ 0 < column') ∨
      StartsBetween (column - Text.unitsOf d) (column' - Text.unitsOf d)
        line := by
  constructor
  · rintro ⟨front, c, rest, hline, hfrom, hto⟩
    cases front with
    | nil =>
        exact .inl ⟨Nat.le_zero.mp hfrom, hto⟩
    | cons d' front =>
        cases hline
        rw [Text.units] at hfrom hto
        exact .inr ⟨front, c, rest, rfl, by omega, by omega⟩
  · rintro (⟨rfl, hto⟩ | ⟨front, c, rest, rfl, hfrom, hto⟩)
    · exact ⟨[], d, line, rfl, Nat.zero_le _, hto⟩
    · refine ⟨d :: front, c, rest, rfl, ?_, ?_⟩
      · rw [Text.units]
        omega
      · rw [Text.units]
        omega

theorem ofColumn_sub (column seen : Nat) (line : List Char) :
    ofColumn column seen line = ofColumn (column - seen) 0 line := by
  induction line generalizing column seen with
  | nil =>
      rfl
  | cons d line ih =>
      rw [ofColumn, ofColumn, ih, ih (column - seen), Nat.zero_add, Nat.sub_sub]
      simp only [Nat.le_zero, Nat.sub_eq_zero_iff_le]

theorem ofColumn_eq_iff {column column' : Nat} (h : column ≤ column')
    {line : List Char} :
    ofColumn column 0 line = ofColumn column' 0 line ↔
    ¬ StartsBetween column column' line := by
  induction line generalizing column column' with
  | nil =>
      exact iff_of_true rfl (not_startsBetween_nil column column')
  | cons d line ih =>
      have hsize : 0 < d.utf8Size := Char.utf8Size_pos d
      have htail := ih (Nat.sub_le_sub_right h (Text.unitsOf d))
      rw [startsBetween_cons, not_or, ← htail, ofColumn, ofColumn,
        ofColumn_sub column, ofColumn_sub column', Nat.zero_add]
      cases column with
      | zero =>
          cases column' with
          | zero =>
              simp
          | succ column' =>
              simp
              omega
      | succ column =>
          rw [if_neg (Nat.not_succ_le_zero _), if_neg (by omega)]
          simp

/-- Two positions of one line, of which no character starts from the first
position on up to the second. -/
def Coincide (text : List Char) (p q : Position) : Prop :=
  p.line = q.line ∧ ∃ line, lineAt? text p.line = some line ∧
    ¬ StartsBetween p.character q.character line

theorem coincide_iff {text : List Char} {p q : Position}
    (h : p.before q = true) :
    Coincide text p q ↔
      ∃ offset, ofPosition? text p = some offset ∧
      ofPosition? text q = some offset := by
  rcases exists_at?_eq text p.line with ⟨start, hat⟩
  rw [Position.before_iff] at h
  constructor
  · rintro ⟨hsame, line, hline, hnone⟩
    have hcolumns : p.character ≤ q.character := by omega
    refine ⟨start + ofColumn p.character 0 line, ?_, ?_⟩
    · rw [ofPosition?, hat, hline]
      rfl
    · rw [ofPosition?, ← hsame, hat, hline,
        (ofColumn_eq_iff hcolumns).mpr hnone]
      rfl
  · rintro ⟨offset, hp, hq⟩
    rcases h with hlt | ⟨hsame, hcolumn⟩
    · exact absurd (at?_lt hlt hp hq) (Nat.lt_irrefl offset)
    · rw [ofPosition?, hat, Option.map_eq_some_iff] at hp
      rw [ofPosition?, ← hsame, hat, Option.map_eq_some_iff] at hq
      rcases hp with ⟨line, hline, rfl⟩
      rcases hq with ⟨line', hline', heq⟩
      rw [hline, Option.some.injEq] at hline'
      subst hline'
      have hplace :
          ofColumn p.character 0 line = ofColumn q.character 0 line := by omega
      exact ⟨hsame, line, hline,
        (ofColumn_eq_iff (Nat.le_of_lt hcolumn)).mp hplace⟩

end Offset

namespace TextEdit

variable {text : List Char} {edits : List TextEdit}

/-! # Edits with such ranges -/

def collapsed (e : TextEdit) : TextEdit :=
  ⟨⟨e.range.start, e.range.start⟩, e.newText⟩

/-- Edits with a reversed range fit a text only where its ends coincide. -/
theorem Fit.coincide (h : Fit text edits) {e : TextEdit} (he : e ∈ edits)
    (hreversed : e.range.stop.before e.range.start = true) :
    Offset.Coincide text e.range.stop e.range.start := by
  rcases exists_spanOf_iff.mpr (h.lines e he) with ⟨s, hs⟩
  have hforward : s.start ≤ s.stop :=
    h.forward s (List.mem_filterMap.mpr ⟨e, he, hs⟩)
  rcases spanOf_eq_some_iff.mp hs with ⟨hstart, hstop, -⟩
  have hback : s.stop ≤ s.start := by
    refine Offset.at?_mono ?_ hstop hstart
    exact (Position.before_iff.mp hreversed).imp_right fun hline =>
      ⟨hline.1, Nat.le_of_lt hline.2⟩
  rw [Nat.le_antisymm hback hforward] at hstop
  exact (Offset.coincide_iff hreversed).mpr ⟨s.start, hstop, hstart⟩

theorem ofEdit_collapsed {e : TextEdit}
    (hreversed : e.range.stop.before e.range.start = true)
    (h : Offset.Coincide text e.range.stop e.range.start) :
    Span.ofEdit text e = Span.ofEdit text e.collapsed := by
  rcases (Offset.coincide_iff hreversed).mp h with ⟨offset, hstop, hstart⟩
  have hspan : spanOf text e = some ⟨offset, offset, e.newText.toList⟩ :=
    spanOf_eq_some_iff.mpr ⟨hstart, hstop, rfl⟩
  have hcollapsed :
      spanOf text e.collapsed = some ⟨offset, offset, e.newText.toList⟩ :=
    spanOf_eq_some_iff.mpr ⟨hstart, hstart, rfl⟩
  rw [Span.ofEdit_eq_ok_iff.mpr ⟨hspan, Nat.le_refl _⟩,
    Span.ofEdit_eq_ok_iff.mpr ⟨hcollapsed, Nat.le_refl _⟩]

theorem ofEdits_congr {e e' : TextEdit}
    (h : Span.ofEdit text e = Span.ofEdit text e')
    (front back : List TextEdit) :
    Span.ofEdits text (front ++ e :: back) =
      Span.ofEdits text (front ++ e' :: back) := by
  induction front with
  | nil =>
      rw [List.nil_append, List.nil_append, Span.ofEdits, Span.ofEdits, h]
  | cons d front ih =>
      rw [List.cons_append, List.cons_append, Span.ofEdits, Span.ofEdits, ih]

theorem applyAll_cases (content : String) (edits : List TextEdit) :
    Fit content.toList edits ∨
    ∃ message, applyAll content edits = .error (.edit message) := by
  cases h : Span.applyTo content.toList edits with
  | ok updated =>
      exact .inl (Span.applyTo_eq_ok_iff.mp h).1
  | error f =>
      right
      exact ⟨f.message, by rw [applyAll, h]⟩

/-- A list of edits with a reversed range is refused, unless its ends coincide:
then the edit inserts its text where they stand. -/
theorem applyAll_reversed (content : String) (front back : List TextEdit)
    {e : TextEdit} (hreversed : e.range.stop.before e.range.start = true) :
    (¬ Offset.Coincide content.toList e.range.stop e.range.start →
      ∃ message, applyAll content (front ++ e :: back) =
        .error (.edit message)) ∧
    (Offset.Coincide content.toList e.range.stop e.range.start →
      applyAll content (front ++ e :: back) =
        applyAll content (front ++ e.collapsed :: back)) := by
  constructor
  · intro happart
    refine (applyAll_cases content (front ++ e :: back)).resolve_left
      fun hfit => ?_
    exact happart (hfit.coincide (by simp) hreversed)
  · intro hcoincide
    rw [applyAll, applyAll, Span.applyTo, Span.applyTo,
      ofEdits_congr (ofEdit_collapsed hreversed hcoincide)]

def onFirstLine (start stop : Nat) (newText : String) : TextEdit :=
  ⟨⟨⟨0, start⟩, ⟨0, stop⟩⟩, newText⟩

theorem applyAll_reversed_abc :
    (onFirstLine 2 1 "x").range.stop.before (onFirstLine 2 1 "x").range.start =
      true ∧
    (∃ message, applyAll "abc\n" [onFirstLine 0 1 "A", onFirstLine 2 1 "x"] =
      .error (.edit message)) ∧
    (onFirstLine 9 5 "x").range.stop.before (onFirstLine 9 5 "x").range.start =
      true ∧
    applyAll "abc\n" [onFirstLine 0 1 "A", onFirstLine 9 5 "x"] =
      applyAll "abc\n" [onFirstLine 0 1 "A", onFirstLine 9 9 "x"] := by
  have happart : ¬ Offset.Coincide "abc\n".toList ⟨0, 1⟩ ⟨0, 2⟩ := by
    rw [Offset.coincide_iff (by decide)]
    rintro ⟨offset, hp, hq⟩
    have hone : Offset.ofPosition? "abc\n".toList ⟨0, 1⟩ = some 1 := by decide
    have htwo : Offset.ofPosition? "abc\n".toList ⟨0, 2⟩ = some 2 := by decide
    rw [hone] at hp
    rw [htwo, ← hp] at hq
    exact nomatch hq
  have hcoincide : Offset.Coincide "abc\n".toList ⟨0, 5⟩ ⟨0, 9⟩ :=
    (Offset.coincide_iff (by decide)).mpr ⟨3, by decide, by decide⟩
  refine ⟨by decide, ?_, by decide, ?_⟩
  · exact (applyAll_reversed "abc\n" [onFirstLine 0 1 "A"] []
      (by decide)).1 happart
  · exact (applyAll_reversed "abc\n" [onFirstLine 0 1 "A"] []
      (by decide)).2 hcoincide

/-- Both columns lie behind the end of their line, so the range is taken for the
empty one there. -/
theorem reversed_range_inserts :
    (onFirstLine 9 5 "x").range.stop.before (onFirstLine 9 5 "x").range.start =
      true ∧
    applyAll "abc\n" [onFirstLine 9 5 "x"] = .ok "abcx\n" := by
  decide

end TextEdit
end CodeIntel
