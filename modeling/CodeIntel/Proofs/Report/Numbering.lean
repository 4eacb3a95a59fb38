import CodeIntel.Proofs.Report.Excerpt
import CodeIntel.Proofs.Text.Lines
import CodeIntel.Proofs.Text.Numeral

/-!
# Numbered lines

The lines of a definition are joined to one text, whose lines are then numbered.
Each comes out under its number, in a column as wide as the last of the numbers.
Two things get lost on the way, as joined lines do not show where the last one
ends and what a terminator is: a blank line that comes last, and a carriage
return at the end of any other line. Nothing else is lost.
-/

namespace CodeIntel

/-! # Lines that were joined -/

namespace Text

/-- Lines that were joined by line feeds are read as they were, but a carriage
return at the end of a line counts as part of the line feed, and the last line
is read on its own. -/
theorem lines_intercalate {front : List (List Char)}
    (hfront : ∀ line ∈ front, '\n' ∉ line) (last : List Char) :
    lines (['\n'].intercalate (front ++ [last])) =
      front.map bare ++ lines last := by
  induction front with
  | nil =>
      rw [List.nil_append, List.intercalate_singleton]
      rfl
  | cons line rest ih =>
      rcases List.forall_mem_cons.mp hfront with ⟨hline, hrest⟩
      rw [List.cons_append, List.intercalate_cons_of_ne_nil (by simp),
        List.append_assoc, List.singleton_append, lines_below hline, ih hrest,
        List.map_cons, List.cons_append]

theorem cut_unique {c : Char} {front front' rest rest' : List Char}
    (h : c ∉ front) (h' : c ∉ front')
    (heq : front ++ c :: rest = front' ++ c :: rest') :
    front = front' ∧ rest = rest' := by
  have htake {text : List Char} (htext : c ∉ text) (below : List Char) :
      (text ++ c :: below).takeWhile (· ≠ c) = text := by
    have hall : ∀ d ∈ text, decide (d ≠ c) = true :=
      fun d hd => decide_eq_true fun hdc => htext (hdc ▸ hd)
    rw [List.takeWhile_append_of_pos hall, List.takeWhile_cons_of_neg (by simp),
      List.append_nil]
  have hfront : front = front' := by
    rw [← htake h rest, heq, htake h']
  rw [hfront] at heq
  exact ⟨hfront, (List.cons.inj (List.append_cancel_left heq)).2⟩

end Text

/-! # Numerals in a column -/

namespace Numeral

theorem length_toString (n : Nat) :
    (toString n).length = (Nat.toDigits 10 n).length := by
  rw [Nat.toString_eq_repr, ← String.length_toList, Nat.toList_repr]

theorem length_toString_mono {m n : Nat} (h : m ≤ n) :
    (toString m).length ≤ (toString n).length := by
  have hpos : 0 < (Nat.toDigits 10 n).length :=
    List.length_pos_iff.mpr Nat.toDigits_ne_nil
  have hn : n < 10 ^ (Nat.toDigits 10 n).length :=
    (Nat.length_toDigits_le_iff (by decide) hpos).mp (Nat.le_refl _)
  rw [length_toString, length_toString]
  exact (Nat.length_toDigits_le_iff (by decide) hpos).mpr
    (Nat.lt_of_le_of_lt h hn)

theorem length_padded {width n : Nat} (h : (toString n).length ≤ width) :
    (padded width n).length = width := by
  rw [padded, String.length_append, String.length_ofList, List.length_replicate]
  exact Nat.sub_add_cancel h

theorem not_mem_padded {c : Char} (hdigit : c.isDigit = false)
    (hblank : c ≠ ' ') (width n : Nat) :
    c ∉ (padded width n).toList := by
  rw [padded, String.toList_append, String.toList_ofList, Nat.toString_eq_repr,
    Nat.toList_repr, List.mem_append, not_or]
  constructor
  · intro hmem
    exact hblank (List.eq_of_mem_replicate hmem)
  · exact not_mem_toDigits hdigit n

end Numeral

namespace Excerpt

/-! # Listings -/

def numberedRow (width number : Nat) (line : String) : String :=
  s!"{Numeral.padded width number}|{line}\n"

/-- The lines with their numbers from `number` on, in a column of some width. -/
def listing (width number : Nat) (lines : List String) : String :=
  String.join (lines.mapIdx fun i line => numberedRow width (number + i) line)

theorem numbered_eq_listing (text : String) (number : Nat) :
    numbered text number = listing
      (toString (number + ((Text.linesOf text).length - 1))).length number
      (Text.linesOf text) := rfl

theorem toList_numberedRow (width number : Nat) (line : String) :
    (numberedRow width number line).toList =
      (Numeral.padded width number).toList ++
        '|' :: (line.toList ++ ['\n']) := by
  show (Numeral.padded width number ++ "|" ++ line ++ "\n").toList = _
  simp

theorem toList_listing_nil (width number : Nat) :
    (listing width number []).toList = [] := rfl

theorem toList_listing_cons (width number : Nat) (line : String)
    (rest : List String) :
    (listing width number (line :: rest)).toList =
      (Numeral.padded width number).toList ++ '|' ::
        (line.toList ++ '\n' :: (listing width (number + 1) rest).toList) := by
  have hrest : (fun i line => numberedRow width (number + (i + 1)) line) =
      fun i line => numberedRow width (number + 1 + i) line := by
    funext i line
    rw [Nat.add_assoc, Nat.add_comm 1 i]
  rw [listing, List.mapIdx_cons, hrest, String.join_cons, String.toList_append,
    toList_numberedRow]
  simp [listing]

/-- The lines can be told from a listing, whatever its width is. -/
theorem listing_inj {width width' number : Nat} {lines lines' : List String}
    (hlines : ∀ line ∈ lines, '\n' ∉ line.toList)
    (hlines' : ∀ line ∈ lines', '\n' ∉ line.toList)
    (h : listing width number lines = listing width' number lines') :
    lines = lines' := by
  induction lines generalizing lines' number with
  | nil =>
      cases lines' with
      | nil =>
          rfl
      | cons line' rest' =>
          have hlist := congrArg String.toList h
          rw [toList_listing_nil, toList_listing_cons] at hlist
          simp at hlist
  | cons line rest ih =>
      have hlist := congrArg String.toList h
      cases lines' with
      | nil =>
          rw [toList_listing_cons, toList_listing_nil] at hlist
          simp at hlist
      | cons line' rest' =>
          rcases List.forall_mem_cons.mp hlines with ⟨hline, hrest⟩
          rcases List.forall_mem_cons.mp hlines' with ⟨hline', hrest'⟩
          have hbar (w : Nat) : '|' ∉ (Numeral.padded w number).toList :=
            Numeral.not_mem_padded (by decide) (by decide) w number
          rw [toList_listing_cons, toList_listing_cons] at hlist
          have htexts := (Text.cut_unique (hbar _) (hbar _) hlist).2
          rcases Text.cut_unique hline hline' htexts with ⟨heq, hrests⟩
          rw [String.toList_inj.mp heq,
            ih hrest hrest' (String.toList_inj.mp hrests)]

/-! # Spans of lines -/

def withoutReturn (line : String) : String :=
  String.ofList (Text.bare line.toList)

theorem not_mem_lineAt (content : String) (i : Nat) :
    '\n' ∉ (lineAt content i).toList := by
  rw [lineAt, Text.linesOf, List.getElem?_map]
  cases h : (Text.lines content.toList)[i]? with
  | none =>
      exact List.not_mem_nil
  | some line =>
      rw [Option.map_some, Option.getD_some, String.toList_ofList]
      exact Text.not_mem_of_mem_lines (List.mem_of_getElem? h)

theorem linesOf_of_not_mem {line : String} (h : '\n' ∉ line.toList) :
    Text.linesOf line = if line = "" then [] else [line] := by
  rw [Text.linesOf]
  split
  · next hblank =>
      rw [hblank]
      rfl
  · next hline =>
      have hne : line.toList ≠ [] := by simpa using hline
      rw [Text.lines_of_not_mem h hne, List.map_singleton, String.ofList_toList]

theorem withoutReturn_eq_iff (line : String) :
    withoutReturn line = line ↔ line.toList.getLast? ≠ some '\r' := by
  rw [withoutReturn, ← String.toList_inj, String.toList_ofList]
  rcases Text.bare_cases line.toList with ⟨front, hline, hbare⟩ | ⟨hlast, hbare⟩
  · rw [hbare, hline, List.getLast?_concat]
    simp
  · exact iff_of_true hbare hlast

/-- The index of the last line of a span that goes up to the line at `last`, or
up to the end. -/
def finalIndex (content : String) (last : Nat) : Nat :=
  min last ((Text.linesOf content).length - 1)

def readStop (content : String) (last : Nat) : Nat :=
  let final := finalIndex content last
  if lineAt content final = "" then final else final + 1

/-- What is read for the line at an index of a span. -/
def readLine (content : String) (last i : Nat) : String :=
  if i < finalIndex content last then withoutReturn (lineAt content i)
  else lineAt content i

section Span

variable {content : String} {first last : Nat}

theorem finalIndex_spec (hle : first ≤ last)
    (hfirst : first < (Text.linesOf content).length) :
    first ≤ finalIndex content last ∧
      finalIndex content last + 1 =
        min (last + 1) (Text.linesOf content).length := by
  rw [finalIndex]
  omega

theorem span_eq (hle : first ≤ last)
    (hfirst : first < (Text.linesOf content).length) :
    span content first last =
      "\n".intercalate ((List.Ico first (finalIndex content last)).map
      (lineAt content) ++ [lineAt content (finalIndex content last)]) := by
  rcases finalIndex_spec hle hfirst with ⟨hfinal, hstop⟩
  have hcount : first + (last - first + 1) = last + 1 := by omega
  rw [span, List.take_drop, hcount, List.take_eq_take_min, ← hstop,
    drop_take_linesOf (hstop ▸ Nat.min_le_right _ _), List.Ico.succ_top hfinal,
    List.map_append, List.map_singleton]

/-- What is read of a span: the lines in front of its last one, and that one
unless it is blank. -/
theorem linesOf_span (hle : first ≤ last)
    (hfirst : first < (Text.linesOf content).length) :
    Text.linesOf (span content first last) =
      (List.Ico first (readStop content last)).map (readLine content last) := by
  have hfinal := (finalIndex_spec hle hfirst).1
  have hfeed : "\n".toList = ['\n'] := by decide
  have hfeeds : ∀ line ∈ ((List.Ico first (finalIndex content last)).map
      (lineAt content)).map String.toList, '\n' ∉ line := by
    intro line hline
    rw [List.map_map, List.mem_map] at hline
    rcases hline with ⟨i, -, rfl⟩
    exact not_mem_lineAt content i
  have hfront : (List.Ico first (finalIndex content last)).map
      (withoutReturn ∘ lineAt content) =
        (List.Ico first (finalIndex content last)).map
          (readLine content last) := by
    apply List.map_congr_left
    intro i hi
    exact (if_pos (List.Ico.mem.mp hi).2).symm
  have hread : Text.linesOf (span content first last) =
      (List.Ico first (finalIndex content last)).map
        (withoutReturn ∘ lineAt content) ++
        Text.linesOf (lineAt content (finalIndex content last)) := by
    rw [span_eq hle hfirst, Text.linesOf, String.toList_intercalate,
      List.map_append, List.map_singleton, hfeed, Text.lines_intercalate hfeeds,
      List.map_append, List.map_map, List.map_map, List.map_map]
    rfl
  rw [hread, hfront, linesOf_of_not_mem (not_mem_lineAt content _), readStop]
  split
  · exact List.append_nil _
  · rw [List.Ico.succ_top hfinal, List.map_append, List.map_singleton, readLine,
      if_neg (Nat.lt_irrefl _)]

end Span

/-! # Spans under their numbers -/

/-- The lines of a text by index, from `first` on and up to `stop`, each under
its number, which counts from one. -/
def numberedRows (width : Nat) (line : Nat → String) (first stop : Nat) :
    String :=
  String.join ((List.Ico first stop).map fun i =>
    numberedRow width (i + 1) (line i))

theorem listing_map (width : Nat) (line : Nat → String) (first stop : Nat) :
    listing width (first + 1) ((List.Ico first stop).map line) =
      numberedRows width line first stop := by
  have hnumber : (fun i text => numberedRow width (first + 1 + i) text) =
      fun i text => (fun i => numberedRow width (i + 1)) (first + i) text := by
    funext i text
    rw [Nat.add_right_comm]
  rw [listing, hnumber, mapIdx_Ico fun i => numberedRow width (i + 1),
    numberedRows]

section Span

variable {content : String} {first last : Nat}

theorem numbered_span_eq (hle : first ≤ last)
    (hfirst : first < (Text.linesOf content).length) :
    numbered (span content first last) (first + 1) =
      numberedRows (toString (readStop content last)).length
        (readLine content last) first (readStop content last) := by
  rw [numbered_eq_listing, linesOf_span hle hfirst, listing_map,
    List.length_map, List.Ico.length]
  rcases Nat.lt_or_ge first (readStop content last) with hsome | hnone
  · have hlast : first + 1 + (readStop content last - first - 1) =
        readStop content last := by omega
    rw [hlast]
  · rw [numberedRows, numberedRows, List.Ico.eq_nil_of_le hnone, List.map_nil,
      List.map_nil]

theorem readStop_of_blank (h : lineAt content (finalIndex content last) = "") :
    readStop content last = finalIndex content last :=
  if_pos h

theorem readStop_of_not_blank
    (h : lineAt content (finalIndex content last) ≠ "") :
    readStop content last = finalIndex content last + 1 :=
  if_neg h

theorem readLine_eq_iff {i : Nat} : readLine content last i = lineAt content i ↔
    (i < finalIndex content last →
      (lineAt content i).toList.getLast? ≠ some '\r') := by
  rw [readLine]
  split
  · next h =>
      rw [withoutReturn_eq_iff, forall_prop_of_true h]
  · next h =>
      exact iff_of_true rfl fun hi => absurd hi h

theorem read_eq_lines_iff (hle : first ≤ last)
    (hfirst : first < (Text.linesOf content).length) :
    (List.Ico first (readStop content last)).map (readLine content last) =
        (List.Ico first (finalIndex content last + 1)).map (lineAt content) ↔
      lineAt content (finalIndex content last) ≠ "" ∧ ∀ i, first ≤ i →
        i < finalIndex content last →
        (lineAt content i).toList.getLast? ≠ some '\r' := by
  have hfinal := (finalIndex_spec hle hfirst).1
  by_cases hblank : lineAt content (finalIndex content last) = ""
  · refine iff_of_false ?_ fun h => h.1 hblank
    intro heq
    have hlength := congrArg List.length heq
    rw [List.length_map, List.length_map, List.Ico.length, List.Ico.length,
      readStop_of_blank hblank] at hlength
    omega
  · rw [readStop_of_not_blank hblank, List.map_inj_left, and_iff_right hblank]
    simp only [List.Ico.mem, readLine_eq_iff]
    constructor
    · intro h i hi hlt
      exact h i ⟨hi, Nat.lt_succ_of_lt hlt⟩ hlt
    · intro h i hi hlt
      exact h i hi.1 hlt

theorem not_mem_readLine (content : String) (last i : Nat) :
    '\n' ∉ (readLine content last i).toList := by
  rw [readLine]
  split
  · rw [withoutReturn, String.toList_ofList]
    exact Text.not_mem_bare (not_mem_lineAt content i)
  · exact not_mem_lineAt content i

theorem length_padded_of_lt {i stop : Nat} (h : i < stop) :
    (Numeral.padded (toString stop).length (i + 1)).length =
      (toString stop).length :=
  Numeral.length_padded (Numeral.length_toString_mono h)

end Span

/-- A span of lines comes out with each line under its number, in a column that
is as wide as the last number; a blank last line is left out, and a line in
front of the last one loses a carriage return at its end. So all lines come out,
and as they are, iff the last one is not blank and none of the others ends with
a carriage return. -/
theorem numbered_span {content : String} {first last : Nat} (hle : first ≤ last)
    (hfirst : first < (Text.linesOf content).length) :
    let final := finalIndex content last
    let stop := readStop content last
    let width := (toString stop).length
    numbered (span content first last) (first + 1) =
      numberedRows width (readLine content last) first stop ∧
    (∀ i < stop, (Numeral.padded width (i + 1)).length = width) ∧
    ((∃ width, (∀ i ≤ final, (Numeral.padded width (i + 1)).length = width) ∧
      numbered (span content first last) (first + 1) =
        numberedRows width (lineAt content) first (final + 1)) ↔
      lineAt content final ≠ "" ∧
        ∀ i, first ≤ i → i < final →
        (lineAt content i).toList.getLast? ≠ some '\r') := by
  intro final stop width
  have hshown := numbered_span_eq hle hfirst
  refine ⟨hshown, fun _ => length_padded_of_lt, ?_⟩
  rw [← read_eq_lines_iff hle hfirst, hshown]
  constructor
  · rintro ⟨width', -, heq⟩
    rw [← listing_map, ← listing_map] at heq
    apply listing_inj _ _ heq
    · intro line hline
      rcases List.mem_map.mp hline with ⟨i, -, rfl⟩
      exact not_mem_readLine content last i
    · intro line hline
      rcases List.mem_map.mp hline with ⟨i, -, rfl⟩
      exact not_mem_lineAt content i
  · intro heq
    refine ⟨(toString (final + 1)).length,
      fun _ hi => length_padded_of_lt (Nat.lt_succ_of_le hi), ?_⟩
    have hblank := ((read_eq_lines_iff hle hfirst).mp heq).1
    rw [← listing_map, ← listing_map, heq, readStop_of_not_blank hblank]

/-- Blank lines in front of the last one come out. -/
theorem numbered_span_blank_inside :
    0 ≤ 9 ∧ 0 < (Text.linesOf "a\n\nc\n").length ∧
    ∃ width, (∀ i ≤ finalIndex "a\n\nc\n" 9,
      (Numeral.padded width (i + 1)).length = width) ∧
      numbered (span "a\n\nc\n" 0 9) (0 + 1) =
        numberedRows width (lineAt "a\n\nc\n") 0
          (finalIndex "a\n\nc\n" 9 + 1) := by
  have hle : 0 ≤ 9 := by decide
  have hfirst : 0 < (Text.linesOf "a\n\nc\n").length := by decide
  refine ⟨hle, hfirst, (numbered_span hle hfirst).2.2.mpr ⟨by decide, ?_⟩⟩
  have hfinal : finalIndex "a\n\nc\n" 9 = 2 := by decide
  rw [hfinal]
  decide

/-- A blank line is not among the numbered ones if it comes last. -/
theorem blank_last_line_is_lost :
    numbered (span "one\n\n" 0 1) 1 = "1|one\n" ∧
    (Text.linesOf "one\n\n") = ["one", ""] ∧
    ¬ ∃ width, numbered (span "one\n\n" 0 1) 1 =
      numberedRows width (lineAt "one\n\n") 0 2 := by
  refine ⟨by decide, by decide, ?_⟩
  rintro ⟨width, heq⟩
  have hshown : numbered (span "one\n\n" 0 1) 1 = listing 1 1 ["one"] := by
    decide
  have hrows :
      numberedRows width (lineAt "one\n\n") 0 2 = listing width 1 ["one", ""] :=
    (listing_map width (lineAt "one\n\n") 0 2).symm
  rw [hshown, hrows] at heq
  have hlines := listing_inj (by decide) (by decide) heq
  exact absurd hlines (by decide)

end Excerpt
end CodeIntel
