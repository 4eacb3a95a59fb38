import CodeIntel.Edit.Offset
import CodeIntel.Proofs.Text.Lines
import Mathlib.Data.List.TakeWhile

/-!
# Positions and their offsets

The position behind a piece of text counts its line feeds and the units of its
last line. Looking up the offset of that position leads back to the bytes of the
piece. Only behind a carriage return that belongs to a terminator it leads in
front of that carriage return, since columns end there.

Every position whose line exists has an offset, which lies between two
characters, and a later position never has a smaller one.
-/

namespace CodeIntel
namespace Offset

/-! # Boundaries of characters -/

/-- The offset lies in front of a character or at the end of the text. -/
def IsBoundary (text : List Char) (offset : Nat) : Prop :=
  ∃ front rest, text = front ++ rest ∧ Text.bytes front = offset

theorem IsBoundary.le {text : List Char} {offset : Nat}
    (h : IsBoundary text offset) :
    offset ≤ Text.bytes text := by
  rcases h with ⟨front, rest, rfl, rfl⟩
  rw [Text.bytes_append]
  exact Nat.le_add_right _ _

theorem IsBoundary.append_left {text : List Char} {offset : Nat}
    (h : IsBoundary text offset) (front : List Char) :
    IsBoundary (front ++ text) (Text.bytes front + offset) := by
  rcases h with ⟨mid, rest, rfl, rfl⟩
  exact ⟨front ++ mid, rest, (List.append_assoc front mid rest).symm,
    Text.bytes_append front mid⟩

theorem IsBoundary.append_right {text : List Char} {offset : Nat}
    (h : IsBoundary text offset) (rest : List Char) :
    IsBoundary (text ++ rest) offset := by
  rcases h with ⟨front, mid, rfl, rfl⟩
  exact ⟨front, mid ++ rest, List.append_assoc front mid rest, rfl⟩

theorem IsBoundary.behind {front text : List Char} {offset : Nat}
    (h : IsBoundary (front ++ text) offset) (hle : Text.bytes front ≤ offset) :
    IsBoundary text (offset - Text.bytes front) := by
  rcases h with ⟨front', rest, heq, rfl⟩
  rcases List.append_eq_append_iff.mp heq with ⟨mid, rfl, rfl⟩ | ⟨mid, rfl, rfl⟩
  · exact ⟨mid, rest, rfl, by rw [Text.bytes_append, Nat.add_sub_cancel_left]⟩
  · rw [Text.bytes_append] at hle ⊢
    exact ⟨[], text, rfl, by rw [Text.bytes]; omega⟩

theorem before_bytes (front rest : List Char) :
    before (Text.bytes front) (front ++ rest) = front := by
  induction front with
  | nil =>
      cases rest with
      | nil =>
          rfl
      | cons c rest =>
          rw [List.nil_append, before, Text.bytes,
            if_neg (Nat.not_le_of_lt (Char.utf8Size_pos c))]
  | cons c front ih =>
      rw [List.cons_append, before, Text.bytes, if_pos (Nat.le_add_right _ _),
        Nat.add_sub_cancel_left, ih]

theorem behind_bytes (front rest : List Char) :
    behind (Text.bytes front) (front ++ rest) = rest := by
  have hsplit := before_append_behind (Text.bytes front) (front ++ rest)
  rw [before_bytes] at hsplit
  exact List.append_cancel_left hsplit

/-! # Columns of a line -/

theorem ofColumn_units (front rest : List Char) (seen : Nat) :
    ofColumn (seen + Text.units front) seen (front ++ rest) =
      Text.bytes front := by
  induction front generalizing seen with
  | nil =>
      cases rest with
      | nil =>
          rfl
      | cons c rest =>
          simp [ofColumn, Text.units, Text.bytes]
  | cons c front ih =>
      have hpos : 0 < Text.unitsOf c := Text.unitsOf_pos c
      have hmore : ¬ seen + Text.units (c :: front) ≤ seen := by
        rw [Text.units]
        omega
      have htail : seen + Text.units (c :: front) =
          seen + Text.unitsOf c + Text.units front := by
        rw [Text.units, Nat.add_assoc]
      rw [List.cons_append, ofColumn, if_neg hmore, htail, ih, Text.bytes]

theorem ofColumn_past {target seen : Nat} {line : List Char}
    (h : seen + Text.units line ≤ target) :
    ofColumn target seen line = Text.bytes line := by
  induction line generalizing seen with
  | nil =>
      rfl
  | cons c rest ih =>
      have hpos : 0 < Text.unitsOf c := Text.unitsOf_pos c
      rw [Text.units] at h
      rw [ofColumn, if_neg (by omega), ih (by omega), Text.bytes]

theorem isBoundary_ofColumn (target seen : Nat) (line : List Char) :
    IsBoundary line (ofColumn target seen line) := by
  induction line generalizing seen with
  | nil =>
      exact ⟨[], [], rfl, rfl⟩
  | cons c rest ih =>
      rw [ofColumn]
      split
      · exact ⟨[], c :: rest, rfl, rfl⟩
      · exact (ih (seen + Text.unitsOf c)).append_left [c]

theorem ofColumn_mono {target target' : Nat} (h : target ≤ target') (seen : Nat)
    (line : List Char) :
    ofColumn target seen line ≤ ofColumn target' seen line := by
  induction line generalizing seen with
  | nil =>
      exact Nat.le_refl _
  | cons c rest ih =>
      rw [ofColumn, ofColumn]
      split
      · exact Nat.zero_le _
      · next hmore =>
          rw [if_neg (fun hdone => hmore (Nat.le_trans h hdone))]
          exact Nat.add_le_add_left (ih _) _

/-! # The first line -/

theorem takeWhile_line {line : List Char} (h : '\n' ∉ line) (rest : List Char) :
    (line ++ '\n' :: rest).takeWhile (· ≠ '\n') = line := by
  rw [List.takeWhile_append_of_pos (Text.ne_newline h),
    List.takeWhile_cons_of_neg (by simp), List.append_nil]

theorem dropWhile_line {line : List Char} (h : '\n' ∉ line) (rest : List Char) :
    (line ++ '\n' :: rest).dropWhile (· ≠ '\n') = '\n' :: rest := by
  rw [List.dropWhile_append_of_pos (Text.ne_newline h),
    List.dropWhile_cons_of_neg (by simp)]

theorem takeWhile_last {line : List Char} (h : '\n' ∉ line) :
    line.takeWhile (· ≠ '\n') = line :=
  List.takeWhile_eq_self_iff.mpr (Text.ne_newline h)

theorem firstLine_eq (text : List Char) :
    firstLine text = Text.bare (text.takeWhile (· ≠ '\n')) := rfl

theorem firstLine_append {line rest : List Char} (h : '\n' ∉ line)
    (hrest : rest.head? = none ∨ rest.head? = some '\n') :
    firstLine (line ++ rest) = Text.bare line := by
  cases rest with
  | nil =>
      rw [List.append_nil, firstLine_eq, takeWhile_last h]
  | cons c rest =>
      have hc : c = '\n' := by simpa using hrest
      rw [hc, firstLine_eq, takeWhile_line h]

theorem firstLine_append_more {line rest : List Char} (h : '\n' ∉ line)
    (hrest : ¬ (rest.head? = none ∨ rest.head? = some '\n')) :
    ∃ tail, firstLine (line ++ rest) = line ++ tail := by
  cases rest with
  | nil =>
      exact absurd (.inl rfl) hrest
  | cons c rest =>
      have hc : c ≠ '\n' := fun heq => hrest (.inr (congrArg some heq))
      refine ⟨Text.bare (c :: rest.takeWhile (· ≠ '\n')), ?_⟩
      rw [firstLine_eq, List.takeWhile_append_of_pos (Text.ne_newline h),
        List.takeWhile_cons_of_pos (by simp [hc]),
        Text.bare_append line (List.cons_ne_nil _ _)]

theorem bytes_bare_le (line : List Char) :
    Text.bytes (Text.bare line) ≤ Text.bytes line := by
  rcases Text.bare_cases line with ⟨front, hline, hbare⟩ | ⟨-, hbare⟩
  · rw [hbare, hline, Text.bytes_append]
    exact Nat.le_add_right _ _
  · rw [hbare]

theorem isBoundary_bare {line : List Char} {offset : Nat}
    (h : IsBoundary (Text.bare line) offset) :
    IsBoundary line offset := by
  rcases Text.bare_cases line with ⟨front, hline, hbare⟩ | ⟨-, hbare⟩
  · rw [hbare] at h
    rw [hline]
    exact h.append_right ['\r']
  · rwa [hbare] at h

/-! # Lines below the first -/

theorem at?_below {line : List Char} (h : '\n' ∉ line) (character number : Nat)
    (rest : List Char) : at? character (number + 1) (line ++ '\n' :: rest) =
      (at? character number rest).map (Text.bytes line + 1 + ·) := by
  rw [at?, dropWhile_line h, takeWhile_line h]

theorem at?_past {text : List Char} (h : '\n' ∉ text) (character number : Nat) :
    at? character (number + 1) text = none := by
  have hdrop : text.dropWhile (· ≠ '\n') = [] :=
    List.dropWhile_eq_nil_iff.mpr (Text.ne_newline h)
  rw [at?, hdrop]

theorem count_line {line : List Char} (h : '\n' ∉ line) (rest : List Char) :
    (line ++ '\n' :: rest).count '\n' = rest.count '\n' + 1 := by
  rw [List.count_append, List.count_eq_zero.mpr h, Nat.zero_add,
    List.count_cons_self]

theorem at?_eq_none_iff {character number : Nat} {text : List Char} :
    at? character number text = none ↔ text.count '\n' < number := by
  induction number generalizing text with
  | zero =>
      simp [at?]
  | succ number ih =>
      rcases Text.line_cases text with h | ⟨line, rest, rfl, h⟩
      · rw [at?_past h, List.count_eq_zero.mpr h]
        simp
      · rw [at?_below h, Option.map_eq_none_iff, ih, count_line h]
        omega

theorem isBoundary_at? {character number : Nat} {text : List Char}
    {offset : Nat} (h : at? character number text = some offset) :
    IsBoundary text offset := by
  induction number generalizing text offset with
  | zero =>
      rw [at?, Option.some.injEq] at h
      have hline :=
        isBoundary_bare (h ▸ isBoundary_ofColumn character 0 (firstLine text))
      have hboundary := hline.append_right (text.dropWhile (· ≠ '\n'))
      rwa [List.takeWhile_append_dropWhile] at hboundary
  | succ number ih =>
      rcases Text.line_cases text with hone | ⟨line, rest, rfl, hline⟩
      · rw [at?_past hone] at h
        exact nomatch h
      · rw [at?_below hline, Option.map_eq_some_iff] at h
        rcases h with ⟨inner, hinner, rfl⟩
        have hboundary := (ih hinner).append_left (line ++ ['\n'])
        rwa [List.append_assoc, List.singleton_append,
          Text.bytes_append] at hboundary

theorem at?_first_le {character : Nat} {line rest : List Char} (h : '\n' ∉ line)
    {offset : Nat}
    (hat : at? character 0 (line ++ '\n' :: rest) = some offset) :
    offset ≤ Text.bytes line := by
  rw [at?, firstLine_append h (.inr rfl), Option.some.injEq] at hat
  exact hat ▸ Nat.le_trans (isBoundary_ofColumn _ _ _).le (bytes_bare_le line)

theorem at?_lt {character character' number number' : Nat} {text : List Char}
    {a b : Nat} (hlt : number < number')
    (ha : at? character number text = some a)
    (hb : at? character' number' text = some b) : a < b := by
  induction number generalizing number' text a b with
  | zero =>
      cases number' with
      | zero =>
          exact absurd hlt (Nat.lt_irrefl 0)
      | succ number' =>
          rcases Text.line_cases text with hone | ⟨line, rest, rfl, hline⟩
          · rw [at?_past hone] at hb
            exact nomatch hb
          · rw [at?_below hline, Option.map_eq_some_iff] at hb
            rcases hb with ⟨inner, -, rfl⟩
            have hfirst := at?_first_le hline ha
            omega
  | succ number ih =>
      cases number' with
      | zero =>
          exact absurd hlt (Nat.not_lt_zero _)
      | succ number' =>
          rcases Text.line_cases text with hone | ⟨line, rest, rfl, hline⟩
          · rw [at?_past hone] at ha
            exact nomatch ha
          · rw [at?_below hline, Option.map_eq_some_iff] at ha hb
            rcases ha with ⟨inner, hinner, rfl⟩
            rcases hb with ⟨inner', hinner', rfl⟩
            exact Nat.add_lt_add_left
              (ih (Nat.lt_of_succ_lt_succ hlt) hinner hinner') _

/-! # Columns of a line with a number -/

/-- The line with this number, without its terminator. There is one more behind
a final line feed. -/
def lineAt? (text : List Char) (number : Nat) : Option (List Char) :=
  ((text.splitOn '\n')[number]?).map Text.bare

theorem lineAt?_zero (text : List Char) :
    lineAt? text 0 = some (firstLine text) := by
  rw [lineAt?, firstLine_eq]
  rcases Text.line_cases text with h | ⟨line, rest, rfl, h⟩
  · rw [List.splitOn_eq_singleton h, takeWhile_last h]
    rfl
  · rw [List.splitOn_append_cons_self_of_not_mem h, takeWhile_line h]
    rfl

theorem lineAt?_past {text : List Char} (h : '\n' ∉ text) (number : Nat) :
    lineAt? text (number + 1) = none := by
  rw [lineAt?, List.splitOn_eq_singleton h]
  rfl

theorem lineAt?_below {line : List Char} (h : '\n' ∉ line) (number : Nat)
    (rest : List Char) :
    lineAt? (line ++ '\n' :: rest) (number + 1) = lineAt? rest number := by
  rw [lineAt?, List.splitOn_append_cons_self_of_not_mem h,
    List.getElem?_cons_succ, lineAt?]

theorem exists_at?_eq (text : List Char) (number : Nat) :
    ∃ start, ∀ character, at? character number text =
      (lineAt? text number).map fun line =>
        start + ofColumn character 0 line := by
  induction number generalizing text with
  | zero =>
      refine ⟨0, fun character => ?_⟩
      rw [at?, lineAt?_zero, Option.map_some, Nat.zero_add]
  | succ number ih =>
      rcases Text.line_cases text with h | ⟨line, rest, rfl, h⟩
      · refine ⟨0, fun character => ?_⟩
        rw [at?_past h, lineAt?_past h]
        rfl
      · rcases ih rest with ⟨start, hat⟩
        refine ⟨Text.bytes line + 1 + start, fun character => ?_⟩
        rw [at?_below h, hat, lineAt?_below h, Option.map_map]
        simp only [Function.comp_def, Nat.add_assoc]

theorem at?_mono {character character' number number' : Nat} {text : List Char}
    {a b : Nat}
    (hle : number < number' ∨ number = number' ∧ character ≤ character')
    (ha : at? character number text = some a)
    (hb : at? character' number' text = some b) :
    a ≤ b := by
  rcases hle with hlt | ⟨rfl, hcolumn⟩
  · exact Nat.le_of_lt (at?_lt hlt ha hb)
  · rcases exists_at?_eq text number with ⟨start, hat⟩
    rw [hat, Option.map_eq_some_iff] at ha hb
    rcases ha with ⟨line, hline, rfl⟩
    rcases hb with ⟨line', hline', rfl⟩
    rw [hline, Option.some.injEq] at hline'
    subst hline'
    exact Nat.add_le_add_left (ofColumn_mono hcolumn 0 line) start

/-! # The position behind a piece of text -/

/-- What stands behind the last line feed. -/
def lastLine (text : List Char) : List Char :=
  (text.reverse.takeWhile (· ≠ '\n')).reverse

/-- The position right behind a text: its line feeds, and the units behind the
last of them. -/
def positionAfter (text : List Char) : Position :=
  ⟨text.count '\n', Text.units (lastLine text)⟩

/-- The first piece ends with a carriage return that closes its line, before a
line feed or at the end of the text. -/
def EndsInReturn (front rest : List Char) : Prop :=
  front.getLast? = some '\r' ∧ (rest.head? = none ∨ rest.head? = some '\n')

theorem lastLine_of_not_mem {text : List Char} (h : '\n' ∉ text) :
    lastLine text = text := by
  rw [lastLine, takeWhile_last (by simpa using h), List.reverse_reverse]

theorem lastLine_below (line rest : List Char) :
    lastLine (line ++ '\n' :: rest) = lastLine rest := by
  have hstop (first : List Char) :
      (first ++ '\n' :: line.reverse).takeWhile (· ≠ '\n') =
        first.takeWhile (· ≠ '\n') := by
    induction first with
    | nil =>
        rfl
    | cons c first ih =>
        rw [List.cons_append, List.takeWhile_cons, List.takeWhile_cons, ih]
  rw [lastLine, List.reverse_append, List.reverse_cons, List.append_assoc,
    List.singleton_append, hstop, lastLine]

theorem positionAfter_line {line : List Char} (h : '\n' ∉ line) :
    positionAfter line = ⟨0, Text.units line⟩ := by
  rw [positionAfter, lastLine_of_not_mem h, List.count_eq_zero.mpr h]

theorem positionAfter_below {line : List Char} (h : '\n' ∉ line)
    (rest : List Char) :
    positionAfter (line ++ '\n' :: rest) =
      ⟨(positionAfter rest).line + 1, (positionAfter rest).character⟩ := by
  rw [positionAfter, lastLine_below, count_line h, positionAfter]

/-- Columns of the first line. The carriage return of its terminator is left
out. -/
theorem at?_positionAfter_line {front : List Char} (h : '\n' ∉ front)
    (rest : List Char) :
    (¬ EndsInReturn front rest →
      at? (Text.units front) 0 (front ++ rest) = some (Text.bytes front)) ∧
    (EndsInReturn front rest →
      at? (Text.units front) 0 (front ++ rest) =
        some (Text.bytes front - 1)) := by
  by_cases hend : rest.head? = none ∨ rest.head? = some '\n'
  · rw [at?, firstLine_append h hend]
    rcases Text.bare_cases front with ⟨line, rfl, hbare⟩ | ⟨hlast, hbare⟩
    · have hpast : 0 + Text.units line ≤ Text.units (line ++ ['\r']) := by
        rw [Text.units_append]
        omega
      rw [hbare, ofColumn_past hpast, Text.bytes_append]
      exact ⟨fun hno => absurd ⟨by simp, hend⟩ hno, fun _ => rfl⟩
    · have hcolumn := ofColumn_units front [] 0
      rw [Nat.zero_add, List.append_nil] at hcolumn
      rw [hbare, hcolumn]
      exact ⟨fun _ => rfl, fun hreturn => absurd hreturn.1 hlast⟩
  · rcases firstLine_append_more h hend with ⟨tail, htail⟩
    have hcolumn := ofColumn_units front tail 0
    rw [Nat.zero_add] at hcolumn
    rw [at?, htail, hcolumn]
    exact ⟨fun _ => rfl, fun hreturn => absurd hreturn.2 hend⟩

theorem endsInReturn_below (line below rest : List Char) :
    EndsInReturn (line ++ '\n' :: below) rest ↔ EndsInReturn below rest := by
  cases below with
  | nil =>
      simp [EndsInReturn]
  | cons c below =>
      simp [EndsInReturn, List.getLast?_append]

theorem EndsInReturn.bytes_pos {front rest : List Char}
    (h : EndsInReturn front rest) :
    0 < Text.bytes front := by
  rcases List.getLast?_eq_some_iff.mp h.1 with ⟨init, rfl⟩
  rw [Text.bytes_append]
  exact Nat.lt_of_lt_of_le (by decide) (Nat.le_add_left _ _)

theorem bytes_below (line below : List Char) :
    Text.bytes (line ++ '\n' :: below) =
      Text.bytes line + 1 + Text.bytes below := by
  rw [Text.bytes_append, Text.bytes, Nat.add_assoc]
  rfl

theorem ofPosition?_positionAfter (front rest : List Char) :
    (¬ EndsInReturn front rest →
      ofPosition? (front ++ rest) (positionAfter front) =
        some (Text.bytes front)) ∧
    (EndsInReturn front rest →
      ofPosition? (front ++ rest) (positionAfter front) =
        some (Text.bytes front - 1)) := by
  induction front using Text.line_induction with
  | last line h =>
      rw [positionAfter_line h]
      exact at?_positionAfter_line h rest
  | below line below h ih =>
      rcases ih with ⟨hplain, hreturn⟩
      rw [endsInReturn_below, positionAfter_below h, List.append_assoc,
        List.cons_append, ofPosition?, at?_below h, bytes_below]
      constructor
      · intro hno
        exact congrArg (Option.map (Text.bytes line + 1 + ·)) (hplain hno)
      · intro hyes
        have hpos := hyes.bytes_pos
        refine (congrArg (Option.map (Text.bytes line + 1 + ·))
          (hreturn hyes)).trans ?_
        rw [Option.map_some]
        exact congrArg some (by omega)

/-- Positions and offsets: the offset of the position behind a piece of text is
that of its end, short of a carriage return that closes the line; a position has
an offset iff its line exists; every offset is a boundary of characters in the
text; and a later position has no smaller offset. -/
theorem ofPosition?_inverts_positionAfter (text : List Char) :
    (∀ front rest, text = front ++ rest →
      (¬ EndsInReturn front rest →
        ofPosition? text (positionAfter front) = some (Text.bytes front)) ∧
      (EndsInReturn front rest →
        ofPosition? text (positionAfter front) = some (Text.bytes front - 1))) ∧
    (∀ p, ofPosition? text p = none ↔ text.count '\n' < p.line) ∧
    (∀ p offset, ofPosition? text p = some offset →
      IsBoundary text offset ∧ offset ≤ Text.bytes text) ∧
    (∀ p q a b, p.line < q.line ∨ p.line = q.line ∧ p.character ≤ q.character →
      ofPosition? text p = some a → ofPosition? text q = some b → a ≤ b) := by
  refine ⟨?_, fun p => at?_eq_none_iff, ?_, ?_⟩
  · rintro front rest rfl
    exact ofPosition?_positionAfter front rest
  · intro p offset h
    exact ⟨isBoundary_at? h, (isBoundary_at? h).le⟩
  · intro p q a b hle ha hb
    exact at?_mono hle ha hb

end Offset
end CodeIntel
