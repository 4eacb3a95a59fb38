import CodeIntel.Proofs.Edit.TextEdits
import CodeIntel.Proofs.Edit.Untouched

/-!
# Edits of whole lines as text edits

An edit of whole lines replaces a span of bytes: from the start of its first
line to the start of the line behind its last one. In a text whose lines all end
with a line feed alone it comes to the same whether such edits are spliced into
the lines or, as text edits, into the bytes: splice by splice, from the last to
the first, the bytes are those of the lines.
-/

namespace CodeIntel

/-! # Lines that are all closed -/

namespace Text

def unlines (lines : List (List Char)) : List Char :=
  lines.flatMap (· ++ ['\n'])

def lineStart (lines : List (List Char)) (number : Nat) : Nat :=
  bytes (unlines (lines.take number))

theorem unlines_cons (line : List Char) (rest : List (List Char)) :
    unlines (line :: rest) = line ++ '\n' :: unlines rest := by
  rw [unlines, List.flatMap_cons, List.append_assoc,
    List.singleton_append, unlines]

theorem unlines_append (lines rest : List (List Char)) :
    unlines (lines ++ rest) = unlines lines ++ unlines rest :=
  List.flatMap_append

theorem lineStart_cons (line : List Char) (rest : List (List Char))
    (number : Nat) :
    lineStart (line :: rest) (number + 1) =
      bytes line + 1 + lineStart rest number := by
  rw [lineStart, List.take_succ_cons, unlines_cons, Offset.bytes_below,
    lineStart]

variable {lines : List (List Char)} {i j : Nat}

theorem unlines_take (lines : List (List Char)) (h : i ≤ j) :
    unlines (lines.take j) = unlines (lines.take i) ++
      unlines ((lines.take j).drop i) := by
  rw [← unlines_append, ← Nat.min_eq_left h, ← List.take_take,
    Nat.min_eq_left h, List.take_append_drop]

theorem lineStart_mono (lines : List (List Char)) (h : i ≤ j) :
    lineStart lines i ≤ lineStart lines j := by
  rw [lineStart, lineStart, unlines_take lines h, bytes_append]
  exact Nat.le_add_right _ _

theorem lineStart_lt (h : i < j) (hj : j ≤ lines.length) :
    lineStart lines i < lineStart lines j := by
  induction lines generalizing i j with
  | nil =>
      rw [List.length_nil] at hj
      omega
  | cons line rest ih =>
      cases j with
      | zero =>
          exact absurd h (Nat.not_lt_zero i)
      | succ j =>
          cases i with
          | zero =>
              rw [lineStart_cons]
              exact Nat.lt_of_lt_of_le (Nat.succ_pos _) (Nat.le_add_right _ _)
          | succ i =>
              rw [lineStart_cons, lineStart_cons]
              exact Nat.add_lt_add_left
                (ih (Nat.lt_of_succ_lt_succ h) (Nat.le_of_succ_le_succ hj)) _

theorem ofPosition?_lineStart (hlines : ∀ line ∈ lines, '\n' ∉ line)
    {number : Nat} (h : number ≤ lines.length) :
    Offset.ofPosition? (unlines lines) ⟨number, 0⟩ =
      some (lineStart lines number) := by
  induction number generalizing lines with
  | zero =>
      have hcolumn (line : List Char) : Offset.ofColumn 0 0 line = 0 := by
        cases line <;> rfl
      rw [Offset.ofPosition?, Offset.at?, hcolumn]
      rfl
  | succ number ih =>
      cases lines with
      | nil =>
          exact absurd h (Nat.not_succ_le_zero number)
      | cons line rest =>
          rcases List.forall_mem_cons.mp hlines with ⟨hline, hrest⟩
          have hbelow := ih hrest (Nat.le_of_succ_le_succ h)
          rw [Offset.ofPosition?] at hbelow ⊢
          rw [unlines_cons, Offset.at?_below hline, hbelow, lineStart_cons]
          rfl

end Text

namespace LineEdit

theorem hasReturnNewline_iff {text : List Char} :
    hasReturnNewline text = true ↔ ['\r', '\n'] <:+: text := by
  constructor
  · intro h
    induction text with
    | nil =>
        exact absurd h Bool.false_ne_true
    | cons c rest ih =>
        rw [hasReturnNewline.eq_def] at h
        split at h
        · next heq =>
            rw [heq]
            exact ⟨[], _, rfl⟩
        · next heq =>
            rw [← (List.cons.inj heq).2] at h
            exact List.infix_cons (ih h)
        · next heq =>
            exact absurd heq (List.cons_ne_nil c rest)
  · rintro ⟨front, rest, rfl⟩
    rw [List.append_assoc]
    exact hasReturnNewline_append front rfl

theorem unlines_lines {text : List Char} (hplain : ¬ ['\r', '\n'] <:+: text)
    (hclosed : text = [] ∨ text.getLast? = some '\n') :
    Text.unlines (Text.lines text) = text := by
  induction text using Text.line_induction with
  | last line h =>
      cases hclosed with
      | inl hnil =>
          rw [hnil]
          rfl
      | inr hlast =>
          exact absurd (List.mem_of_getLast? hlast) h
  | below line rest h ih =>
      have hreturn : line.getLast? ≠ some '\r' := by
        intro hlast
        rcases List.getLast?_eq_some_iff.mp hlast with ⟨front, rfl⟩
        exact hplain ⟨front, rest, by simp⟩
      have hrest : ¬ ['\r', '\n'] <:+: rest := by
        intro hmore
        exact hplain ((List.infix_cons hmore).trans
          (List.suffix_append line _).isInfix)
      have hend : rest = [] ∨ rest.getLast? = some '\n' := by
        by_cases hnil : rest = []
        · exact .inl hnil
        · right
          rcases hclosed with hempty | hlast
          · simp at hempty
          · rwa [Text.getLast?_below line hnil] at hlast
      rw [Text.lines_below h, Text.bare_of_getLast? hreturn, Text.unlines_cons,
        ih hrest hend]

/-! # Spans of edits -/

/-- The text edit of an edit of whole lines. It goes from the start of a line to
the start of a line, or stands behind all lines, and has the new lines with a
line feed behind each. -/
def asTextEdit (lineCount : Nat) (e : LineEdit) : TextEdit :=
  ⟨if e.startLine = lineCount + 1 then ⟨⟨lineCount, 0⟩, ⟨lineCount, 0⟩⟩
    else ⟨⟨e.startLine - 1, 0⟩, ⟨min e.endLine lineCount, 0⟩⟩,
    String.ofList (Text.unlines (Text.lines e.newText.toList))⟩

def span (lines : List (List Char)) (e : LineEdit) : Span :=
  ⟨Text.lineStart lines e.first, Text.lineStart lines (e.last lines.length),
    Text.unlines e.replacement⟩

variable {edits : List LineEdit} {lines : List (List Char)}

theorem InSequence.asTextEdit_eq {lineCount : Nat}
    (h : InSequence lineCount edits) {e : LineEdit}
    (he : e ∈ edits) : e.asTextEdit lineCount =
      ⟨⟨⟨e.first, 0⟩, ⟨e.last lineCount, 0⟩⟩,
        String.ofList (Text.unlines e.replacement)⟩ := by
  rcases h.valid e he with ⟨hpos, hforward, hstart⟩
  rw [asTextEdit]
  split
  · next hlast =>
      have hfirst : e.first = lineCount := by
        rw [first]
        omega
      have hend : e.last lineCount = lineCount := by
        rw [last, hfirst]
        omega
      rw [hfirst, hend]
      rfl
  · next hinside =>
      have hend : e.last lineCount = min e.endLine lineCount := by
        rw [last, first]
        omega
      rw [hend]
      rfl

theorem InSequence.spanOf_asTextEdit (h : InSequence lines.length edits)
    (hlines : ∀ line ∈ lines, '\n' ∉ line) {e : LineEdit} (he : e ∈ edits) :
    TextEdit.spanOf (Text.unlines lines) (e.asTextEdit lines.length) =
      some (e.span lines) := by
  have hlast : e.last lines.length ≤ lines.length := h.last_le he
  rw [TextEdit.spanOf_eq_some_iff, h.asTextEdit_eq he]
  refine ⟨?_, ?_, ?_⟩
  · exact Text.ofPosition?_lineStart hlines
      (Nat.le_trans (first_le_last e) hlast)
  · exact Text.ofPosition?_lineStart hlines hlast
  · rw [String.toList_ofList]
    rfl

theorem spansOf_map (h : InSequence lines.length (ordered edits))
    (hlines : ∀ line ∈ lines, '\n' ∉ line) :
    TextEdit.spansOf (Text.unlines lines)
      (edits.map (asTextEdit lines.length)) = edits.map (span lines) := by
  have hspans : ∀ e ∈ edits,
      (TextEdit.spanOf (Text.unlines lines) ∘ asTextEdit lines.length) e =
      (some ∘ span lines) e :=
    fun e he => h.spanOf_asTextEdit hlines ((ordered_perm edits).mem_iff.mpr he)
  rw [TextEdit.spansOf, List.filterMap_map, List.filterMap_congr hspans,
    List.filterMap_eq_map]

theorem forward_map_span (edits : List LineEdit) (lines : List (List Char)) :
    ∀ s ∈ edits.map (span lines), s.start ≤ s.stop := by
  intro s hs
  rcases List.mem_map.mp hs with ⟨e, -, rfl⟩
  exact Text.lineStart_mono lines (first_le_last e)

theorem InSequence.successive (h : InSequence lines.length edits) :
    Span.Successive (edits.map (span lines)) := by
  constructor
  · exact forward_map_span edits lines
  · rw [List.pairwise_map]
    refine h.pairwise.imp_of_mem ?_
    intro d e hd he hde
    apply Text.lineStart_mono
    have hvalid := h.valid d hd
    rw [last, first, first]
    omega

/-! # Splices of lines and splices of bytes -/

/-- One splice of lines is one splice of their bytes. -/
theorem InSequence.splice_span {e : LineEdit}
    (h : InSequence lines.length (e :: edits)) :
    Span.splice (e.span lines)
      (Utf8.encodeChars (Text.unlines (pass edits 1 lines))) =
      Utf8.encodeChars (Text.unlines (pass (e :: edits) 1 lines)) := by
  have hlast : e.last lines.length ≤ lines.length :=
    h.last_le List.mem_cons_self
  have hsplit : Text.unlines (lines.take (e.last lines.length)) =
      Text.unlines (lines.take e.first) ++
      Text.unlines ((lines.take (e.last lines.length)).drop e.first) :=
    Text.unlines_take lines (first_le_last e)
  rw [pass_before hlast h.last_lt, h.pass_cons, Text.unlines_append,
    Text.unlines_append, Text.unlines_append, hsplit,
    ← List.append_assoc (Text.unlines (lines.take e.first))]
  exact Span.splice_encodeChars rfl (congrArg Text.bytes hsplit.symm) _

theorem InSequence.foldr_splice_span (h : InSequence lines.length edits) :
    (edits.map (span lines)).foldr Span.splice
      (Utf8.encodeChars (Text.unlines lines)) =
      Utf8.encodeChars (Text.unlines (pass edits 1 lines)) := by
  induction edits with
  | nil =>
      rw [pass_nil]
      rfl
  | cons e rest ih =>
      rw [List.map_cons, List.foldr_cons, ih h.tail, h.splice_span]

/-! # The order of the spans -/

theorem InSequence.start_lt (h : InSequence lines.length edits) {d e : LineEdit}
    (hd : d ∈ edits) (he : e ∈ edits) (hlt : d.startLine < e.startLine) :
    (d.span lines).start < (e.span lines).start := by
  have hd' := h.valid d hd
  have he' := h.valid e he
  apply Text.lineStart_lt
  · rw [first, first]
    omega
  · rw [first]
    omega

theorem InSequence.eq_of_start (h : InSequence lines.length edits)
    {d e : LineEdit} (hd : d ∈ edits) (he : e ∈ edits)
    (heq : (d.span lines).start = (e.span lines).start) : d = e := by
  apply h.eq_of_startLine hd he
  rcases Nat.lt_trichotomy d.startLine e.startLine with hlt | hsame | hgt
  · exact absurd heq (Nat.ne_of_lt (h.start_lt hd he hlt))
  · exact hsame
  · exact absurd heq.symm (Nat.ne_of_lt (h.start_lt he hd hgt))

theorem sorted_map_span (h : InSequence lines.length (ordered edits)) :
    Span.sorted (edits.map (span lines)) =
      (ordered edits).map (span lines) := by
  have hperm :
      (Span.sorted (edits.map (span lines))).Perm
        ((ordered edits).map (span lines)) :=
    (Span.sorted_perm _).trans ((ordered_perm edits).map (span lines)).symm
  have hascending : ((ordered edits).map (span lines)).Pairwise
      fun s t => Span.atMost s t = true := by
    rw [List.pairwise_map]
    refine h.pairwise.imp_of_mem ?_
    intro d e hd he hde
    have hforward := (h.valid d hd).2.1
    exact Span.atMost_iff.mpr
      (.inl (h.start_lt hd he (Nat.lt_of_le_of_lt hforward hde)))
  apply hperm.eq_of_pairwise _ (Span.pairwise_sorted _) hascending
  intro s t hs ht hst hts
  rcases List.mem_map.mp (hperm.mem_iff.mp hs) with ⟨d, hd, rfl⟩
  rcases List.mem_map.mp ht with ⟨e, he, rfl⟩
  rw [Span.atMost_iff] at hst hts
  rw [h.eq_of_start hd he (by omega)]

/-! # Application -/

theorem fit_asTextEdit (h : InSequence lines.length (ordered edits))
    (hlines : ∀ line ∈ lines, '\n' ∉ line) :
    TextEdit.Fit (Text.unlines lines)
      (edits.map (asTextEdit lines.length)) := by
  have hforward := forward_map_span edits lines
  constructor
  · intro t ht
    rcases List.mem_map.mp ht with ⟨e, he, rfl⟩
    exact TextEdit.exists_spanOf_iff.mp
      ⟨_, h.spanOf_asTextEdit hlines ((ordered_perm edits).mem_iff.mpr he)⟩
  · rw [spansOf_map h hlines]
    exact hforward
  · rw [spansOf_map h hlines, Span.pairwise_apart_iff hforward,
      sorted_map_span h, Span.overlap?_eq_none_iff h.successive.forward]
    exact h.successive.apart

theorem applyTo_asTextEdit {text updated : List Char} {summary : EditSummary}
    (hplain : ¬ ['\r', '\n'] <:+: text)
    (hclosed : text = [] ∨ text.getLast? = some '\n')
    (h : applyTo text edits = .ok (updated, summary)) :
    Span.applyTo text (edits.map (asTextEdit (Text.lines text).length)) =
      .ok updated := by
  rcases applyTo_eq_ok_iff.mp h with ⟨hsequence, hupdated, -⟩
  have hlines : ∀ line ∈ Text.lines text, '\n' ∉ line :=
    fun _ => Text.not_mem_of_mem_lines
  have htext : Text.unlines (Text.lines text) = text :=
    unlines_lines hplain hclosed
  have hfit := fit_asTextEdit hsequence hlines
  have hspans := spansOf_map hsequence hlines
  rw [htext] at hfit hspans
  have hjoined : updated = Text.unlines (pass edits 1 (Text.lines text)) := by
    rw [← hasReturnNewline_iff] at hplain
    rw [hupdated, closes_iff.mpr hclosed, joinLines_closed, ending,
      if_neg hplain]
    rfl
  have hfold := hsequence.foldr_splice_span
  rw [htext, pass_ordered, ← hjoined] at hfold
  have happly := Span.applyTo_eq_ok_iff.mpr ⟨hfit, rfl⟩
  refine happly.trans (congrArg Except.ok (Utf8.encodeChars_injective ?_))
  rw [Span.encodeChars_of_applyTo happly, hspans,
    sorted_map_span hsequence, hfold]

/-- In a text whose lines all end with a line feed alone, edits of whole lines
that are applied give the same text as the text edits that they come to. -/
theorem applyAll_asTextEdit {content updated : String} {summary : EditSummary}
    (hplain : ¬ ['\r', '\n'] <:+: content.toList)
    (hclosed : content = "" ∨ content.toList.getLast? = some '\n')
    (h : apply content edits = .ok (updated, summary)) :
    TextEdit.applyAll content
      (edits.map (asTextEdit (Text.lines content.toList).length)) =
      .ok updated := by
  have hends : content.toList = [] ∨ content.toList.getLast? = some '\n' :=
    hclosed.imp_left String.toList_eq_nil_iff.mpr
  exact TextEdit.applyAll_eq_ok_iff.mpr
    (applyTo_asTextEdit hplain hends (apply_eq_ok_iff.mp h))

theorem applyAll_asTextEdit_mixed :
    apply "a\n\nb\rc\n" [⟨4, 9, "x\r\ny\r"⟩, ⟨1, 2, ""⟩] =
      .ok ("b\rc\nx\ny\r\n", ⟨2, 2, 2⟩) ∧
    TextEdit.applyAll "a\n\nb\rc\n"
      ([⟨4, 9, "x\r\ny\r"⟩, ⟨1, 2, ""⟩].map (asTextEdit 3)) =
      .ok "b\rc\nx\ny\r\n" := by
  have h : apply "a\n\nb\rc\n" [⟨4, 9, "x\r\ny\r"⟩, ⟨1, 2, ""⟩] =
      .ok ("b\rc\nx\ny\r\n", ⟨2, 2, 2⟩) := by decide
  have hplain : ¬ ['\r', '\n'] <:+: "a\n\nb\rc\n".toList := by
    rw [← hasReturnNewline_iff]
    decide
  have hcount : (Text.lines "a\n\nb\rc\n".toList).length = 3 := by decide
  have hsame := applyAll_asTextEdit hplain (.inr (by decide)) h
  rw [hcount] at hsame
  exact ⟨h, hsame⟩

end LineEdit
end CodeIntel
