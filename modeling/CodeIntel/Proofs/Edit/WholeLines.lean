import CodeIntel.Edit.Lines
import Mathlib.Data.List.Chain

/-!
# Edits of whole lines as one pass

The edits of a text are spliced into its lines from the last one to the first.
That comes to one pass over the lines from the top: a line that no edit covers
is copied, and the first line of each edit gives way to its new lines. The pass
does not ask in which order the edits are listed, and the counts of the summary
say how many lines it leaves.
-/

namespace CodeIntel
namespace LineEdit

/-! # The pass -/

def covers (e : LineEdit) (number : Nat) : Bool :=
  e.startLine ≤ number && number ≤ e.endLine

def isCovered (edits : List LineEdit) (number : Nat) : Bool :=
  edits.any (·.covers number)

def placedAt (edits : List LineEdit) (number : Nat) : List (List Char) :=
  (edits.filter (·.startLine = number)).flatMap replacement

/-- Copies lines, of which the first one has the given number, except those that
an edit covers, and puts new lines where an edit starts, at last behind all
lines. -/
def pass (edits : List LineEdit) (number : Nat) :
    List (List Char) → List (List Char)
  | [] => placedAt edits number
  | line :: rest =>
    placedAt edits number ++ (if isCovered edits number then [] else [line]) ++
      pass edits (number + 1) rest

variable {edits : List LineEdit} {number lineCount : Nat}

theorem covers_iff {e : LineEdit} :
    e.covers number = true ↔ e.startLine ≤ number ∧ number ≤ e.endLine := by
  rw [covers, Bool.and_eq_true, decide_eq_true_eq, decide_eq_true_eq]

theorem isCovered_cons {e : LineEdit} (h : e.covers number = true) :
    isCovered (e :: edits) number = true := by
  rw [isCovered, List.any_cons, h, Bool.true_or]

theorem placedAt_of_later (h : ∀ e ∈ edits, number < e.startLine) :
    placedAt edits number = [] := by
  have hnone : edits.filter (·.startLine = number) = [] := by
    rw [List.filter_eq_nil_iff]
    intro e he heq
    have hlater := h e he
    rw [decide_eq_true_eq] at heq
    omega
  rw [placedAt, hnone, List.flatMap_nil]

theorem isCovered_of_later (h : ∀ e ∈ edits, number < e.startLine) :
    isCovered edits number = false := by
  rw [isCovered, List.any_eq_false]
  intro e he
  have hlater := h e he
  rw [covers_iff]
  omega

theorem placedAt_cons_of_ne {e : LineEdit} (h : e.startLine ≠ number) :
    placedAt (e :: edits) number = placedAt edits number := by
  rw [placedAt, List.filter_cons_of_neg (by simpa using h), placedAt]

theorem pass_before {count : Nat} {lines : List (List Char)}
    (hcount : count ≤ lines.length)
    (h : ∀ e ∈ edits, number + count ≤ e.startLine) : pass edits number lines =
      lines.take count ++ pass edits (number + count) (lines.drop count) := by
  induction count generalizing number lines with
  | zero =>
      rfl
  | succ count ih =>
      cases lines with
      | nil =>
          exact absurd hcount (Nat.not_succ_le_zero _)
      | cons line rest =>
          have hlater : ∀ e ∈ edits, number < e.startLine := by
            intro e he
            have hstart := h e he
            omega
          have hrest : pass edits (number + 1) rest =
              rest.take count ++ pass edits (number + 1 + count)
                (rest.drop count) := by
            apply ih (Nat.le_of_succ_le_succ hcount)
            intro e he
            have hstart := h e he
            omega
          rw [pass, placedAt_of_later hlater, isCovered_of_later hlater, hrest,
            Nat.add_right_comm]
          rfl

theorem pass_nil (number : Nat) (lines : List (List Char)) :
    pass [] number lines = lines := by
  rw [pass_before (Nat.le_refl _) (fun e he => absurd he List.not_mem_nil),
    List.take_length, List.drop_length]
  exact List.append_nil lines

theorem pass_behind {e : LineEdit} (hforward : e.startLine ≤ e.endLine)
    (h : e.endLine < number) (lines : List (List Char)) :
    pass (e :: edits) number lines = pass edits number lines := by
  induction lines generalizing number with
  | nil =>
      exact placedAt_cons_of_ne (by omega)
  | cons line rest ih =>
      have hcovers : e.covers number = false := by
        rw [Bool.eq_false_iff, ne_eq, covers_iff]
        omega
      rw [pass, placedAt_cons_of_ne (by omega), ih (by omega), isCovered,
        List.any_cons, hcovers, Bool.false_or, pass, isCovered]

theorem pass_inside {e : LineEdit} (hforward : e.startLine ≤ e.endLine)
    (hlater : ∀ d ∈ edits, e.endLine < d.startLine)
    (hstart : e.startLine < number) (lines : List (List Char)) :
    pass (e :: edits) number lines =
      pass edits (number + min (e.endLine + 1 - number) lines.length)
        (lines.drop (e.endLine + 1 - number)) := by
  induction lines generalizing number with
  | nil =>
      rw [List.length_nil, Nat.min_zero, List.drop_nil, pass, pass,
        Nat.add_zero, placedAt_cons_of_ne (by omega)]
  | cons line rest ih =>
      by_cases hend : e.endLine < number
      · rw [pass_behind hforward hend, Nat.sub_eq_zero_of_le hend, Nat.zero_min,
          Nat.add_zero, List.drop_zero]
      · have hplaced : placedAt (e :: edits) number = [] := by
          rw [placedAt_cons_of_ne (by omega)]
          apply placedAt_of_later
          intro d hd
          have hd' := hlater d hd
          omega
        have hcovered : isCovered (e :: edits) number = true :=
          isCovered_cons (covers_iff.mpr ⟨by omega, by omega⟩)
        have hdrop : e.endLine + 1 - number =
            (e.endLine + 1 - (number + 1)) + 1 := by omega
        have hmin :
            number + min (e.endLine + 1 - number) (line :: rest).length =
            number + 1 + min (e.endLine + 1 - (number + 1)) rest.length := by
          rw [List.length_cons]
          omega
        rw [hmin, hdrop, List.drop_succ_cons, pass, hplaced, if_pos hcovered,
          ih (by omega)]
        rfl

theorem pass_block {e : LineEdit} (hforward : e.startLine ≤ e.endLine)
    (hlater : ∀ d ∈ edits, e.endLine < d.startLine) (lines : List (List Char)) :
    pass (e :: edits) e.startLine lines = e.replacement ++
      pass edits (e.startLine + min (e.endLine + 1 - e.startLine) lines.length)
        (lines.drop (e.endLine + 1 - e.startLine)) := by
  have hrest : placedAt edits e.startLine = [] := by
    apply placedAt_of_later
    intro d hd
    have hd' := hlater d hd
    omega
  have hplaced : placedAt (e :: edits) e.startLine = e.replacement := by
    have hcons : placedAt (e :: edits) e.startLine =
        e.replacement ++ placedAt edits e.startLine := by
      simp [placedAt]
    rw [hcons, hrest, List.append_nil]
  cases lines with
  | nil =>
      rw [pass, hplaced, List.length_nil, Nat.min_zero, List.drop_nil, pass,
        Nat.add_zero, hrest, List.append_nil]
  | cons line rest =>
      have hcovered : isCovered (e :: edits) e.startLine = true :=
        isCovered_cons (covers_iff.mpr ⟨Nat.le_refl _, hforward⟩)
      have hdrop : e.endLine + 1 - e.startLine =
          (e.endLine + 1 - (e.startLine + 1)) + 1 := by omega
      have hmin :
          e.startLine + min (e.endLine + 1 - e.startLine)
            (line :: rest).length =
          e.startLine + 1 + min (e.endLine + 1 - (e.startLine + 1))
            rest.length := by
        rw [List.length_cons]
        omega
      rw [hmin, hdrop, List.drop_succ_cons, pass, hplaced, if_pos hcovered,
        pass_inside hforward hlater (Nat.lt_succ_self _), List.append_nil]

/-! # Edits in sequence -/

/-- Each edit names lines that exist or the one behind the last, and starts
behind the edit before it. -/
structure InSequence (lineCount : Nat) (edits : List LineEdit) : Prop where
  valid : ∀ e ∈ edits, 1 ≤ e.startLine ∧ e.startLine ≤ e.endLine ∧
    e.startLine ≤ lineCount + 1
  apart : edits.IsChain fun d e => d.endLine < e.startLine

theorem InSequence.tail {e : LineEdit} (h : InSequence lineCount (e :: edits)) :
    InSequence lineCount edits :=
  ⟨fun d hd => h.valid d (List.mem_cons_of_mem e hd), h.apart.tail⟩

theorem InSequence.pairwise (h : InSequence lineCount edits) :
    edits.Pairwise fun d e => d.endLine < e.startLine := by
  induction edits with
  | nil =>
      exact List.Pairwise.nil
  | cons d rest ih =>
      refine List.pairwise_cons.mpr ⟨?_, ih h.tail⟩
      cases rest with
      | nil =>
          exact fun e he => absurd he List.not_mem_nil
      | cons e rest =>
          have hde : d.endLine < e.startLine :=
            (List.isChain_cons_cons.mp h.apart).1
          have he := (h.valid e (by simp)).2.1
          refine List.forall_mem_cons.mpr ⟨hde, fun f hf => ?_⟩
          have hef := (List.pairwise_cons.mp (ih h.tail)).1 f hf
          omega

theorem check_eq_ok_iff {previousEnd : Nat} {e : LineEdit} :
    check lineCount previousEnd e = .ok () ↔
      (1 ≤ e.startLine ∧ e.startLine ≤ e.endLine ∧
        e.startLine ≤ lineCount + 1) ∧ previousEnd < e.startLine := by
  rw [check]
  split_ifs <;> simp only [false_iff, true_iff] <;> omega

theorem checkAll_cons_eq_ok_iff {previousEnd : Nat} {e : LineEdit} :
    checkAll lineCount previousEnd (e :: edits) = .ok () ↔
      check lineCount previousEnd e = .ok () ∧
      checkAll lineCount e.endLine edits = .ok () := by
  cases hcheck : check lineCount previousEnd e with
  | error f =>
      simp [checkAll, hcheck]
  | ok u =>
      simp [checkAll, hcheck]

theorem checkAll_eq_ok_iff {previousEnd : Nat} :
    checkAll lineCount previousEnd edits = .ok () ↔
    InSequence lineCount edits ∧
    ∀ e ∈ edits.head?, previousEnd < e.startLine := by
  induction edits generalizing previousEnd with
  | nil =>
      refine iff_of_true rfl ⟨⟨?_, List.isChain_nil⟩, ?_⟩
      · exact fun e he => absurd he List.not_mem_nil
      · exact fun e he => nomatch he
  | cons e rest ih =>
      rw [checkAll_cons_eq_ok_iff, check_eq_ok_iff, ih]
      constructor
      · rintro ⟨⟨hvalid, hprevious⟩, hrest, hhead⟩
        refine ⟨⟨List.forall_mem_cons.mpr ⟨hvalid, hrest.valid⟩, ?_⟩,
          by simpa using hprevious⟩
        exact List.isChain_cons.mpr ⟨hhead, hrest.apart⟩
      · rintro ⟨hsequence, hprevious⟩
        refine ⟨⟨hsequence.valid e List.mem_cons_self, hprevious e rfl⟩,
          hsequence.tail, ?_⟩
        exact (List.isChain_cons.mp hsequence.apart).1

theorem InSequence.eq_of_startLine (h : InSequence lineCount edits)
    {d e : LineEdit} (hd : d ∈ edits) (he : e ∈ edits)
    (heq : d.startLine = e.startLine) : d = e := by
  by_contra hne
  have hdistinct : edits.Pairwise fun a b => a.startLine ≠ b.startLine :=
    h.pairwise.imp_of_mem fun ha hb hab => by
      have hforward := (h.valid _ ha).2.1
      omega
  have hsymm : Std.Symm fun a b : LineEdit => a.startLine ≠ b.startLine :=
    ⟨fun _ _ hab => hab.symm⟩
  exact hdistinct.forall hd he hne heq

theorem InSequence.ascending (h : InSequence lineCount edits) :
    edits.Pairwise fun a b => a.startLine ≤ b.startLine :=
  h.pairwise.imp_of_mem fun ha hb hab => by
    have hforward := (h.valid _ ha).2.1
    omega

theorem InSequence.eq_of_perm (h : InSequence lineCount edits)
    {sorted : List LineEdit} (hperm : sorted.Perm edits)
    (hsorted : sorted.Pairwise fun a b => a.startLine ≤ b.startLine) :
    sorted = edits := by
  refine hperm.eq_of_pairwise ?_ hsorted h.ascending
  intro a b ha hb hab hba
  exact h.eq_of_startLine (hperm.mem_iff.mp ha) hb (Nat.le_antisymm hab hba)

/-! # Splicing from the last edit to the first -/

theorem InSequence.head_lt {e : LineEdit}
    (h : InSequence lineCount (e :: edits)) :
    ∀ d ∈ edits, e.endLine < d.startLine :=
  (List.pairwise_cons.mp h.pairwise).1

theorem first_le_last (e : LineEdit) : e.first ≤ e.last lineCount :=
  Nat.le_max_left _ _

theorem InSequence.one_add_first {e : LineEdit}
    (h : InSequence lineCount (e :: edits)) :
    1 + e.first = e.startLine := by
  have he := h.valid e List.mem_cons_self
  rw [first]
  omega

theorem InSequence.last_le (h : InSequence lineCount edits) {e : LineEdit}
    (he : e ∈ edits) :
    e.last lineCount ≤ lineCount := by
  have hvalid := h.valid e he
  rw [last, first]
  omega

theorem InSequence.last_lt {e : LineEdit}
    (h : InSequence lineCount (e :: edits)) :
    ∀ d ∈ edits, 1 + e.last lineCount ≤ d.startLine := by
  intro d hd
  have he := h.valid e List.mem_cons_self
  have hd' := h.head_lt d hd
  rw [last, first]
  omega

theorem InSequence.drop_last {e : LineEdit} {lines : List (List Char)}
    (h : InSequence lines.length (e :: edits)) :
    lines.drop (e.last lines.length) =
      (lines.drop e.first).drop (e.endLine + 1 - e.startLine) := by
  have he := h.valid e List.mem_cons_self
  rw [List.drop_drop, first]
  by_cases hend : e.endLine ≤ lines.length
  · have hlast : e.last lines.length =
        e.startLine - 1 + (e.endLine + 1 - e.startLine) := by
      rw [last, first]
      omega
    rw [hlast]
  · -- An edit may end past the text: both sides drop all lines.
    rw [List.drop_eq_nil_of_le (by rw [last]; omega),
      List.drop_eq_nil_of_le (by omega)]

/-- A pass up to the end of the first edit. -/
theorem InSequence.pass_cons {e : LineEdit} {lines : List (List Char)}
    (h : InSequence lines.length (e :: edits)) : pass (e :: edits) 1 lines =
      lines.take e.first ++ (e.replacement ++
        pass edits (1 + e.last lines.length)
          (lines.drop (e.last lines.length))) := by
  have hforward : e.startLine ≤ e.endLine := (h.valid e List.mem_cons_self).2.1
  have hbefore : ∀ d ∈ e :: edits, 1 + e.first ≤ d.startLine := by
    refine List.forall_mem_cons.mpr ⟨Nat.le_of_eq h.one_add_first, ?_⟩
    intro d hd
    exact Nat.le_trans (Nat.add_le_add_left (first_le_last e) 1)
      (h.last_lt d hd)
  have hnumber : 1 + e.last lines.length =
      e.startLine + min (e.endLine + 1 - e.startLine)
        (lines.drop e.first).length := by
    have hfirst := h.one_add_first
    rw [List.length_drop, last]
    omega
  have hfirst : e.first ≤ lines.length :=
    Nat.le_trans (first_le_last e) (h.last_le List.mem_cons_self)
  rw [pass_before hfirst hbefore, h.one_add_first,
    pass_block hforward h.head_lt, hnumber, h.drop_last]

/-- Splicing an edit in is to take it into the pass. -/
theorem splice_pass {e : LineEdit} {lines : List (List Char)}
    (h : InSequence lines.length (e :: edits)) :
    splice lines.length e (pass edits 1 lines) = pass (e :: edits) 1 lines := by
  have hlast : e.last lines.length ≤ lines.length :=
    h.last_le List.mem_cons_self
  have hlength :
      (lines.take (e.last lines.length)).length = e.last lines.length := by
    rw [List.length_take, Nat.min_eq_left hlast]
  rw [h.pass_cons, splice, pass_before hlast h.last_lt,
    List.take_append_of_le_length (by rw [hlength]; exact first_le_last e),
    List.take_take, Nat.min_eq_left (first_le_last e), List.drop_left' hlength,
    List.append_assoc]

theorem spliceAll_eq_pass {lines : List (List Char)}
    (h : InSequence lines.length edits) :
    spliceAll lines.length lines edits = pass edits 1 lines := by
  induction edits with
  | nil =>
      rw [spliceAll, pass_nil]
  | cons e rest ih =>
      rw [spliceAll, ih h.tail, splice_pass h]

/-! # The order in which edits are listed -/

theorem pass_congr {edits' : List LineEdit}
    (hplaced : ∀ number, placedAt edits' number = placedAt edits number)
    (hcovered : ∀ number, isCovered edits' number = isCovered edits number)
    (lines : List (List Char)) :
    pass edits' number lines = pass edits number lines := by
  induction lines generalizing number with
  | nil =>
      exact hplaced number
  | cons line rest ih =>
      rw [pass, pass, hplaced, hcovered, ih]

theorem ordered_perm (edits : List LineEdit) : (ordered edits).Perm edits :=
  Sorting.sortBy_perm _ edits

theorem pairwise_ordered (edits : List LineEdit) :
    (ordered edits).Pairwise fun a b => a.startLine ≤ b.startLine := by
  have hpairwise : (ordered edits).Pairwise fun a b =>
      decide (a.startLine ≤ b.startLine) = true :=
    Sorting.pairwise_sortBy
      (fun a b => by simpa using Nat.le_total a.startLine b.startLine)
      (fun a b c => by simpa using Nat.le_trans) edits
  exact hpairwise.imp fun hab => of_decide_eq_true hab

theorem pass_ordered (lines : List (List Char)) :
    pass (ordered edits) number lines = pass edits number lines := by
  apply pass_congr
  · intro number
    rw [placedAt, ordered, Sorting.filter_sortBy, placedAt]
    intro a b ha hb
    rw [decide_eq_true_eq] at ha hb ⊢
    exact Nat.le_of_eq (ha.trans hb.symm)
  · intro number
    exact (ordered_perm edits).any_eq

/-! # Counts -/

theorem InSequence.removed_le {count : Nat} (h : InSequence lineCount edits)
    (hcount : count ≤ lineCount)
    (hbefore : ∀ e ∈ edits, 1 + count ≤ e.startLine) :
    count + removed lineCount edits ≤ lineCount := by
  induction edits generalizing count with
  | nil =>
      exact hcount
  | cons e rest ih =>
      have hfirst : count ≤ e.first := by
        have he := hbefore e List.mem_cons_self
        rw [first]
        omega
      have hlast : e.first ≤ e.last lineCount := first_le_last e
      have hrest :
          e.last lineCount + sumOf (fun e => e.last lineCount - e.first) rest ≤
            lineCount :=
        ih h.tail (h.last_le List.mem_cons_self) h.last_lt
      rw [removed, sumOf_cons]
      omega

theorem length_splice_pass {e : LineEdit} {lines : List (List Char)}
    (h : InSequence lines.length (e :: edits)) :
    (splice lines.length e (pass edits 1 lines)).length +
      (e.last lines.length - e.first) =
        (pass edits 1 lines).length + e.replacement.length := by
  have hlast : e.first ≤ e.last lines.length := first_le_last e
  have hlength : e.last lines.length ≤ (pass edits 1 lines).length := by
    have hlines : e.last lines.length ≤ lines.length :=
      h.last_le List.mem_cons_self
    rw [pass_before hlines h.last_lt, List.length_append, List.length_take,
      Nat.min_eq_left hlines]
    exact Nat.le_add_right _ _
  rw [splice, List.length_append, List.length_append, List.length_take,
    List.length_drop]
  omega

theorem length_pass {lines : List (List Char)}
    (h : InSequence lines.length edits) :
    (pass edits 1 lines).length + removed lines.length edits =
      lines.length + added edits := by
  induction edits with
  | nil =>
      rw [← spliceAll_eq_pass h]
      rfl
  | cons e rest ih =>
      have hsplice := length_splice_pass h
      have hrest := ih h.tail
      rw [← splice_pass h]
      rw [removed, added] at hrest ⊢
      rw [sumOf_cons, sumOf_cons]
      omega

/-! # Application -/

theorem applyTo_eq_ok_iff {text updated : List Char} {summary : EditSummary} :
    applyTo text edits = .ok (updated, summary) ↔
      InSequence (Text.lines text).length (ordered edits) ∧
        updated = joinLines (ending text) (closes text)
          (pass edits 1 (Text.lines text)) ∧
        summary = ⟨edits.length,
          removed (Text.lines text).length (ordered edits),
          added (ordered edits)⟩ := by
  have hcheck : checkAll (Text.lines text).length 0 (ordered edits) = .ok () ↔
      InSequence (Text.lines text).length (ordered edits) := by
    rw [checkAll_eq_ok_iff, and_iff_left_of_imp]
    intro hsequence e he
    exact (hsequence.valid e (List.mem_of_mem_head? he)).1
  cases h : checkAll (Text.lines text).length 0 (ordered edits) with
  | error f =>
      rw [h] at hcheck
      have hnot : ¬ InSequence (Text.lines text).length (ordered edits) :=
        fun hsequence =>
        nomatch hcheck.mpr hsequence
      simp [applyTo, h, hnot]
  | ok u =>
      have hsequence := hcheck.mp h
      simp only [applyTo, h, Except.ok.injEq, Prod.mk.injEq,
        spliceAll_eq_pass hsequence, pass_ordered, hsequence, true_and, eq_comm]

theorem apply_eq_ok_iff {content updated : String} {summary : EditSummary} :
    apply content edits = .ok (updated, summary) ↔
      applyTo content.toList edits = .ok (updated.toList, summary) := by
  cases h : applyTo content.toList edits with
  | error f =>
      simp [apply, h]
  | ok result =>
      simp only [apply, h, Except.ok.injEq, Prod.ext_iff]
      rw [← String.toList_inj, String.toList_ofList]

theorem applyTo_of_perm {text updated : List Char} {summary : EditSummary}
    (h : applyTo text edits = .ok (updated, summary)) {edits' : List LineEdit}
    (hperm : edits'.Perm edits) :
    applyTo text edits' = .ok (updated, summary) := by
  rcases applyTo_eq_ok_iff.mp h with ⟨hsequence, hupdated, hsummary⟩
  have hordered : ordered edits' = ordered edits :=
    hsequence.eq_of_perm
      ((ordered_perm edits').trans (hperm.trans (ordered_perm edits).symm))
      (pairwise_ordered edits')
  have hpass :
      pass edits' 1 (Text.lines text) = pass edits 1 (Text.lines text) := by
    rw [← pass_ordered, hordered, pass_ordered]
  rw [applyTo_eq_ok_iff, hordered, hpass, hperm.length_eq]
  exact ⟨hsequence, hupdated, hsummary⟩

theorem exists_apply_iff {content : String} {sorted : List LineEdit}
    (hperm : sorted.Perm edits)
    (hsorted : sorted.Pairwise fun d e => d.startLine ≤ e.startLine) :
    (∃ result, apply content edits = .ok result) ↔
      InSequence (Text.lines content.toList).length sorted := by
  have hordered : (ordered edits).Perm sorted :=
    (ordered_perm edits).trans hperm.symm
  constructor
  · rintro ⟨⟨updated, summary⟩, h⟩
    have hsequence := (applyTo_eq_ok_iff.mp (apply_eq_ok_iff.mp h)).1
    rw [hsequence.eq_of_perm hordered.symm hsorted]
    exact hsequence
  · intro hsequence
    have hsame := hsequence.eq_of_perm hordered (pairwise_ordered edits)
    have h := applyTo_eq_ok_iff.mpr ⟨hsame.symm ▸ hsequence, rfl, rfl⟩
    exact ⟨_, by rw [apply, h]⟩

/-- Edits are applied iff, by their first lines, each is in range and starts
behind the edit before it. The lines of the result are those of one pass from
the top, the same in whichever order the edits are listed, and the summary
counts them. -/
theorem apply_replaces_lines (content : String) (edits : List LineEdit) :
    (∀ sorted : List LineEdit, sorted.Perm edits →
      (sorted.Pairwise fun d e => d.startLine ≤ e.startLine) →
      ((∃ result, apply content edits = .ok result) ↔
        InSequence (Text.lines content.toList).length sorted)) ∧
    ∀ updated summary, apply content edits = .ok (updated, summary) →
      updated.toList = joinLines (ending content.toList) (closes content.toList)
        (pass edits 1 (Text.lines content.toList)) ∧
      (∀ edits' : List LineEdit, edits'.Perm edits →
        apply content edits' = .ok (updated, summary)) ∧
      summary.edits = edits.length ∧
      summary.removed ≤ (Text.lines content.toList).length ∧
      (pass edits 1 (Text.lines content.toList)).length =
        (Text.lines content.toList).length - summary.removed +
          summary.added := by
  constructor
  · intro sorted hperm hsorted
    exact exists_apply_iff hperm hsorted
  · intro updated summary h
    rcases applyTo_eq_ok_iff.mp (apply_eq_ok_iff.mp h) with
      ⟨hsequence, hupdated, rfl⟩
    have hremoved :
        0 + removed (Text.lines content.toList).length (ordered edits) ≤
        (Text.lines content.toList).length :=
      hsequence.removed_le (Nat.zero_le _) fun e he => (hsequence.valid e he).1
    rw [Nat.zero_add] at hremoved
    have hlength := length_pass hsequence
    rw [pass_ordered] at hlength
    refine ⟨hupdated, ?_, rfl, hremoved, ?_⟩
    · intro edits' hperm
      exact apply_eq_ok_iff.mpr (applyTo_of_perm (apply_eq_ok_iff.mp h) hperm)
    · dsimp only
      omega

end LineEdit
end CodeIntel
