import CodeIntel.Proofs.Edit.Splices

/-!
# Text edits that refer to one text

The edits of a text are applied iff their lines exist, none of them ends before
it starts, and no two of them overlap. The test for overlaps looks at neighbours
in the order of the spans only; since no span ends before it starts, that speaks
for all pairs. The result is that of splicing the edits into the text one at a
time, from the last to the first, and it depends on the order of the list only
where edits have the same span.
-/

namespace CodeIntel

namespace Span

/-! # The order of spans -/

theorem atMost_iff {s t : Span} :
    atMost s t = true ↔ s.start < t.start ∨ s.start = t.start ∧
    s.stop ≤ t.stop := by
  simp [atMost]

theorem atMost_total (s t : Span) : atMost s t = true ∨ atMost t s = true := by
  rw [atMost_iff, atMost_iff]
  omega

theorem atMost_trans (s t u : Span) (hst : atMost s t = true)
    (htu : atMost t u = true) :
    atMost s u = true := by
  rw [atMost_iff] at hst htu ⊢
  omega

theorem pairwise_sorted (spans : List Span) :
    (sorted spans).Pairwise fun s t => atMost s t = true :=
  Sorting.pairwise_sortBy atMost_total atMost_trans spans

theorem sorted_perm (spans : List Span) : (sorted spans).Perm spans :=
  Sorting.sortBy_perm atMost spans

theorem filter_sorted (start stop : Nat) (spans : List Span) :
    (sorted spans).filter (liesAt start stop) =
      spans.filter (liesAt start stop) := by
  apply Sorting.filter_sortBy
  intro s t hs ht
  rw [liesAt_iff] at hs ht
  rw [atMost_iff]
  omega

/-- The spans from the first to the last: by start, then by end, then as in the
list. -/
structure InOrder (spans ordered : List Span) : Prop where
  perm : ordered.Perm spans
  ascending : ordered.Pairwise fun s t => atMost s t = true
  ties : ∀ start stop, ordered.filter (liesAt start stop) =
    spans.filter (liesAt start stop)

theorem inOrder_sorted (spans : List Span) : InOrder spans (sorted spans) :=
  ⟨sorted_perm spans, pairwise_sorted spans, fun start stop =>
    filter_sorted start stop spans⟩

/-- Ascending lists that agree on each pair of ends are the same. -/
theorem eq_of_filter_liesAt {xs ys : List Span}
    (hxs : xs.Pairwise fun s t => atMost s t = true)
    (hys : ys.Pairwise fun s t => atMost s t = true)
    (h : ∀ start stop, xs.filter (liesAt start stop) =
      ys.filter (liesAt start stop)) : xs = ys := by
  refine Sorting.eq_of_filter_eq (fun s => (s.start, s.stop)) ?_ ?_ hxs hys ?_
  · intro s
    rw [atMost_iff]
    omega
  · intro s t hst hts
    rw [atMost_iff] at hst hts
    rw [Prod.mk.injEq]
    omega
  · rintro ⟨start, stop⟩
    have hclass : ∀ s : Span, decide ((s.start, s.stop) = (start, stop)) =
        liesAt start stop s := by
      intro s
      rw [Bool.eq_iff_iff, decide_eq_true_eq, Prod.mk.injEq, liesAt_iff]
    simp only [hclass, h]

theorem InOrder.eq_sorted {spans ordered : List Span}
    (h : InOrder spans ordered) :
    ordered = sorted spans :=
  eq_of_filter_liesAt h.ascending (pairwise_sorted spans) fun start stop => by
    rw [h.ties, filter_sorted]

/-! # Spans that do not overlap -/

/-- Of two spans, the later one starts at or behind the end of the earlier
one. -/
def Apart (s t : Span) : Prop :=
  (atMost s t = true → s.stop ≤ t.start) ∧
    (atMost t s = true → t.stop ≤ s.start)

theorem Apart.symm {s t : Span} (h : Apart s t) : Apart t s :=
  ⟨h.2, h.1⟩

theorem overlap?_eq_none_iff {spans : List Span}
    (hforward : ∀ s ∈ spans, s.start ≤ s.stop) :
    overlap? spans = none ↔ spans.Pairwise fun s t => s.stop ≤ t.start := by
  induction spans with
  | nil =>
      simp [overlap?]
  | cons s rest ih =>
      cases rest with
      | nil =>
          simp [overlap?]
      | cons t rest =>
          have htail := ih fun u hu => hforward u (List.mem_cons_of_mem s hu)
          rw [overlap?]
          split
          · next hlt =>
              refine iff_of_false (by simp) fun h => ?_
              have hst := (List.pairwise_cons.mp h).1 t List.mem_cons_self
              omega
          · next hle =>
              rw [htail]
              constructor
              · intro h
                refine List.pairwise_cons.mpr ⟨?_, h⟩
                intro u hu
                -- The neighbour passes the bound on, since it does not end
                -- before it starts.
                have ht : t.start ≤ t.stop := hforward t (by simp)
                rcases List.mem_cons.mp hu with rfl | hu
                · omega
                · have htu := (List.pairwise_cons.mp h).1 u hu
                  omega
              · intro h
                exact (List.pairwise_cons.mp h).2

theorem pairwise_apart_iff {spans : List Span}
    (hforward : ∀ s ∈ spans, s.start ≤ s.stop) :
    spans.Pairwise Apart ↔ overlap? (sorted spans) = none := by
  have hforward' : ∀ s ∈ sorted spans, s.start ≤ s.stop :=
    fun s hs => hforward s ((sorted_perm spans).mem_iff.mp hs)
  rw [overlap?_eq_none_iff hforward',
    ← (sorted_perm spans).pairwise_iff Apart.symm]
  constructor
  · intro h
    exact (h.and (pairwise_sorted spans)).imp fun hst => hst.1.1 hst.2
  · intro h
    refine h.imp_of_mem fun {s t} hs ht hst => ⟨fun _ => hst, fun hts => ?_⟩
    have hs' := hforward' s hs
    have ht' := hforward' t ht
    rw [atMost_iff] at hts
    omega

end Span

namespace TextEdit

/-! # The spans of edits -/

def spanOf (text : List Char) (e : TextEdit) : Option Span := do
  let start ← Offset.ofPosition? text e.range.start
  let stop ← Offset.ofPosition? text e.range.stop
  some ⟨start, stop, e.newText.toList⟩

def spansOf (text : List Char) (edits : List TextEdit) : List Span :=
  edits.filterMap (spanOf text)

/-- What is asked of the edits of a text. -/
structure Fit (text : List Char) (edits : List TextEdit) : Prop where
  lines : ∀ e ∈ edits,
    e.range.start.line ≤ text.count '\n' ∧ e.range.stop.line ≤ text.count '\n'
  forward : ∀ s ∈ spansOf text edits, s.start ≤ s.stop
  apart : (spansOf text edits).Pairwise Span.Apart

theorem exists_offset_iff {text : List Char} {p : Position} :
    (∃ offset, Offset.ofPosition? text p = some offset) ↔
    p.line ≤ text.count '\n' := by
  rw [← Option.isSome_iff_exists, Option.isSome_iff_ne_none, ne_eq,
    Offset.ofPosition?, Offset.at?_eq_none_iff, Nat.not_lt]

theorem spanOf_eq_some_iff {text : List Char} {e : TextEdit} {s : Span} :
    spanOf text e = some s ↔
    Offset.ofPosition? text e.range.start = some s.start ∧
      Offset.ofPosition? text e.range.stop = some s.stop ∧
      s.newText = e.newText.toList := by
  cases s with
  | mk start stop newText =>
      cases hstart : Offset.ofPosition? text e.range.start <;>
        cases hstop : Offset.ofPosition? text e.range.stop <;>
          simp [spanOf, hstart, hstop, eq_comm]

theorem exists_spanOf_iff {text : List Char} {e : TextEdit} :
    (∃ s, spanOf text e = some s) ↔
      e.range.start.line ≤ text.count '\n' ∧
      e.range.stop.line ≤ text.count '\n' := by
  rw [← exists_offset_iff, ← exists_offset_iff]
  constructor
  · rintro ⟨s, hs⟩
    rcases spanOf_eq_some_iff.mp hs with ⟨hstart, hstop, -⟩
    exact ⟨⟨_, hstart⟩, ⟨_, hstop⟩⟩
  · rintro ⟨⟨start, hstart⟩, ⟨stop, hstop⟩⟩
    exact ⟨⟨start, stop, e.newText.toList⟩,
      spanOf_eq_some_iff.mpr ⟨hstart, hstop, rfl⟩⟩

theorem isBoundary_spansOf {text : List Char} {edits : List TextEdit} :
    ∀ s ∈ spansOf text edits, Offset.IsBoundary text s.start ∧
    Offset.IsBoundary text s.stop := by
  intro s hs
  rcases List.mem_filterMap.mp hs with ⟨e, -, he⟩
  rcases spanOf_eq_some_iff.mp he with ⟨hstart, hstop, -⟩
  exact ⟨Offset.isBoundary_at? hstart, Offset.isBoundary_at? hstop⟩

end TextEdit

namespace Span

open TextEdit

variable {text : List Char} {edits : List TextEdit} {spans : List Span}

theorem ofEdit_eq_ok_iff {e : TextEdit} {s : Span} :
    ofEdit text e = .ok s ↔ spanOf text e = some s ∧ s.start ≤ s.stop := by
  cases hstart : Offset.ofPosition? text e.range.start with
  | none =>
      simp [ofEdit, locate, spanOf, hstart, bind, Except.bind]
  | some start =>
      cases hstop : Offset.ofPosition? text e.range.stop with
      | none =>
          simp [ofEdit, locate, spanOf, hstart, hstop, bind, Except.bind]
      | some stop =>
          have heq :
              ofEdit text e = if stop < start then .error (.reversed e.range)
              else .ok ⟨start, stop, e.newText.toList⟩ := by
            simp [ofEdit, locate, hstart, hstop, bind, Except.bind]
          have hspan : spanOf text e = some ⟨start, stop, e.newText.toList⟩ :=
            spanOf_eq_some_iff.mpr ⟨hstart, hstop, rfl⟩
          rw [heq, hspan, Option.some.injEq]
          constructor
          · intro h
            split at h
            · exact nomatch h
            · next hle =>
                cases h
                exact ⟨rfl, Nat.le_of_not_lt hle⟩
          · rintro ⟨rfl, hle⟩
            rw [if_neg (Nat.not_lt.mpr hle)]

theorem ofEdits_cons_eq_ok_iff {e : TextEdit} :
    ofEdits text (e :: edits) = .ok spans ↔ ∃ s rest, ofEdit text e = .ok s ∧
    ofEdits text edits = .ok rest ∧ spans = s :: rest := by
  cases hfirst : ofEdit text e with
  | error f =>
      simp [ofEdits, hfirst, bind, Except.bind]
  | ok s =>
      cases hrest : ofEdits text edits with
      | error f =>
          simp [ofEdits, hfirst, hrest, bind, Except.bind]
      | ok rest =>
          simp [ofEdits, hfirst, hrest, bind, Except.bind, eq_comm]

theorem ofEdits_eq_ok_iff :
    ofEdits text edits = .ok spans ↔
      spans = spansOf text edits ∧
      (∀ e ∈ edits, e.range.start.line ≤ text.count '\n' ∧
        e.range.stop.line ≤ text.count '\n') ∧
      ∀ s ∈ spans, s.start ≤ s.stop := by
  induction edits generalizing spans with
  | nil =>
      simp only [ofEdits, spansOf, List.filterMap_nil, Except.ok.injEq]
      constructor
      · rintro rfl
        exact ⟨rfl, fun e he => absurd he List.not_mem_nil,
          fun s hs => absurd hs List.not_mem_nil⟩
      · rintro ⟨rfl, -⟩
        rfl
  | cons e edits ih =>
      rw [ofEdits_cons_eq_ok_iff]
      constructor
      · rintro ⟨s, rest, hfirst, hrest, rfl⟩
        rcases ofEdit_eq_ok_iff.mp hfirst with ⟨hspan, hle⟩
        rcases ih.mp hrest with ⟨rfl, hlines, hforward⟩
        refine ⟨(List.filterMap_cons_some hspan).symm, ?_, ?_⟩
        · exact List.forall_mem_cons.mpr
            ⟨exists_spanOf_iff.mp ⟨s, hspan⟩, hlines⟩
        · exact List.forall_mem_cons.mpr ⟨hle, hforward⟩
      · rintro ⟨rfl, hlines, hforward⟩
        rcases exists_spanOf_iff.mpr (hlines e List.mem_cons_self) with
          ⟨s, hspan⟩
        have hcons : spansOf text (e :: edits) = s :: spansOf text edits :=
          List.filterMap_cons_some hspan
        rw [hcons] at hforward ⊢
        rcases List.forall_mem_cons.mp hforward with ⟨hle, hrest⟩
        exact ⟨s, _, ofEdit_eq_ok_iff.mpr ⟨hspan, hle⟩,
          ih.mpr ⟨rfl, fun d hd => hlines d (List.mem_cons_of_mem e hd), hrest⟩,
          rfl⟩

/-- Edits are applied iff they fit the text, and the result is the pass over
their spans. -/
theorem applyTo_eq_ok_iff {updated : List Char} :
    applyTo text edits = .ok updated ↔ Fit text edits ∧
    updated = rewriteFrom 0 text (sorted (spansOf text edits)) := by
  cases hspans : ofEdits text edits with
  | error f =>
      have hno : ¬ Fit text edits := by
        intro h
        have hok := ofEdits_eq_ok_iff.mpr ⟨rfl, h.lines, h.forward⟩
        rw [hspans] at hok
        exact nomatch hok
      simp [applyTo, hspans, bind, Except.bind, hno]
  | ok spans =>
      rcases ofEdits_eq_ok_iff.mp hspans with ⟨rfl, hlines, hforward⟩
      cases hoverlap : overlap? (sorted (spansOf text edits)) with
      | some pair =>
          have hno : ¬ Fit text edits := by
            intro h
            rw [(pairwise_apart_iff hforward).mp h.apart] at hoverlap
            exact nomatch hoverlap
          simp [applyTo, hspans, bind, Except.bind, hno, hoverlap]
      | none =>
          have hfit : Fit text edits :=
            ⟨hlines, hforward, (pairwise_apart_iff hforward).mpr hoverlap⟩
          simp [applyTo, hspans, bind, Except.bind, hfit, hoverlap, eq_comm]

theorem successive_sorted (h : Fit text edits) :
    Successive (sorted (spansOf text edits)) := by
  have hforward : ∀ s ∈ sorted (spansOf text edits), s.start ≤ s.stop :=
    fun s hs => h.forward s ((sorted_perm _).mem_iff.mp hs)
  exact ⟨hforward, (overlap?_eq_none_iff hforward).mp
    ((pairwise_apart_iff h.forward).mp h.apart)⟩

theorem isBoundary_sorted : ∀ s ∈ sorted (spansOf text edits),
    Offset.IsBoundary text s.start ∧ Offset.IsBoundary text s.stop :=
  fun s hs => isBoundary_spansOf s ((sorted_perm _).mem_iff.mp hs)

theorem encodeChars_of_applyTo {updated : List Char}
    (h : applyTo text edits = .ok updated) :
    Utf8.encodeChars updated =
      (sorted (spansOf text edits)).foldr splice (Utf8.encodeChars text) := by
  rcases applyTo_eq_ok_iff.mp h with ⟨hfit, rfl⟩
  exact encodeChars_rewriteFrom (successive_sorted hfit) [] isBoundary_sorted
    fun _ _ => Nat.zero_le _

end Span

namespace TextEdit

variable {text : List Char} {edits edits' : List TextEdit}

/-! # Other orders of the list -/

def endsOf (text : List Char) (e : TextEdit) : Option (Nat × Nat) :=
  (spanOf text e).map fun s => (s.start, s.stop)

/-- The second list has the edits of the first one, those of one span in the
same order. -/
def Reordered (text : List Char) (edits edits' : List TextEdit) : Prop :=
  ∀ ends, (edits'.filter fun e => endsOf text e = ends) = edits.filter fun e =>
    endsOf text e = ends

theorem Reordered.perm (h : Reordered text edits edits') :
    edits'.Perm edits := by
  rw [List.perm_iff_count]
  intro e
  have hcount (list : List TextEdit) :
      (list.filter fun d => endsOf text d = endsOf text e).count e =
        list.count e :=
    List.count_filter (by simp)
  rw [← hcount edits', h, hcount]

theorem filter_spansOf (start stop : Nat) (edits : List TextEdit) :
    (spansOf text edits).filter (Span.liesAt start stop) =
      spansOf text (edits.filter fun e =>
        endsOf text e = some (start, stop)) := by
  induction edits with
  | nil =>
      rfl
  | cons e rest ih =>
      cases hspan : spanOf text e with
      | none =>
          have hends : endsOf text e = none := by
            rw [endsOf, hspan, Option.map_none]
          rw [spansOf, List.filterMap_cons_none hspan,
            List.filter_cons_of_neg (by simp [hends])]
          exact ih
      | some s =>
          have hends : endsOf text e = some (s.start, s.stop) := by
            rw [endsOf, hspan, Option.map_some]
          have hlies : decide (endsOf text e = some (start, stop)) =
              Span.liesAt start stop s := by
            rw [Bool.eq_iff_iff, decide_eq_true_eq, hends, Option.some.injEq,
              Prod.mk.injEq, Span.liesAt_iff]
          rw [spansOf, List.filterMap_cons_some hspan, List.filter_cons,
            List.filter_cons, hlies]
          split
          · rw [spansOf, List.filterMap_cons_some hspan]
            exact congrArg (s :: ·) ih
          · exact ih

theorem Reordered.sorted_eq (h : Reordered text edits edits') :
    Span.sorted (spansOf text edits') = Span.sorted (spansOf text edits) :=
  Span.eq_of_filter_liesAt (Span.pairwise_sorted _) (Span.pairwise_sorted _)
    fun start stop => by
    rw [Span.filter_sorted, Span.filter_sorted, filter_spansOf,
      filter_spansOf, h]

theorem Fit.of_perm (h : Fit text edits) (hperm : edits'.Perm edits) :
    Fit text edits' where
  lines e he := h.lines e (hperm.mem_iff.mp he)
  forward s hs := h.forward s ((hperm.filterMap _).mem_iff.mp hs)
  apart := ((hperm.filterMap _).pairwise_iff Span.Apart.symm).mpr h.apart

theorem applyTo_reordered {updated : List Char}
    (h : Span.applyTo text edits = .ok updated)
    (hreordered : Reordered text edits edits') :
    Span.applyTo text edits' = .ok updated := by
  rcases Span.applyTo_eq_ok_iff.mp h with ⟨hfit, rfl⟩
  rw [Span.applyTo_eq_ok_iff, hreordered.sorted_eq]
  exact ⟨hfit.of_perm hreordered.perm, rfl⟩

/-! # Application -/

theorem applyAll_eq_ok_iff {content updated : String} :
    applyAll content edits = .ok updated ↔
    Span.applyTo content.toList edits = .ok updated.toList := by
  cases h : Span.applyTo content.toList edits with
  | error f =>
      simp [applyAll, h]
  | ok text =>
      simp only [applyAll, h, Except.ok.injEq]
      rw [← String.toList_inj, String.toList_ofList]

theorem encode_of_applyAll {content updated : String}
    (h : applyAll content edits = .ok updated) :
    Utf8.encode updated =
      (Span.sorted (spansOf content.toList edits)).foldr Span.splice
        (Utf8.encode content) := by
  rw [← Utf8.encodeChars_toList, ← Utf8.encodeChars_toList]
  exact Span.encodeChars_of_applyTo (applyAll_eq_ok_iff.mp h)

theorem inserts_of_applyAll {content updated : String}
    (h : applyAll content edits = .ok updated) {offset : Nat}
    (hinsert : (spansOf content.toList edits).filter
      (Span.liesAt offset offset) ≠ []) :
    ∃ left right, Utf8.encode updated =
        left ++ ((spansOf content.toList edits).filter
          (Span.liesAt offset offset)).flatMap Span.newBytes ++ right ∧
      left.length =
        Span.movedBy ((spansOf content.toList edits).filter (·.start < offset))
          offset := by
  have hfit := (Span.applyTo_eq_ok_iff.mp (applyAll_eq_ok_iff.mp h)).1
  have hlength : offset ≤ (Utf8.encode content).length := by
    rcases List.exists_mem_of_ne_nil _ hinsert with ⟨s, hs⟩
    rcases List.mem_filter.mp hs with ⟨hmem, hlies⟩
    rw [← Utf8.encodeChars_toList, Utf8.length_encodeChars,
      ← (Span.liesAt_iff.mp hlies).1]
    exact (isBoundary_spansOf s hmem).1.le
  rw [← Span.filter_sorted] at hinsert ⊢
  rw [encode_of_applyAll h,
    ← Span.movedBy_perm
      ((Span.sorted_perm (spansOf content.toList edits)).filter _)]
  exact Span.foldr_splice_of_inserts (Span.successive_sorted hfit)
    hlength hinsert

theorem getElem?_of_applyAll {content updated : String}
    (h : applyAll content edits = .ok updated) {offset : Nat} {b : UInt8}
    (hb : (Utf8.encode content)[offset]? = some b)
    (hout : ∀ s ∈ spansOf content.toList edits, offset < s.start ∨
      s.stop ≤ offset) :
    (Utf8.encode updated)[Span.movedBy
      ((spansOf content.toList edits).filter (·.start ≤ offset)) offset]? =
      some b := by
  have hfit := (Span.applyTo_eq_ok_iff.mp (applyAll_eq_ok_iff.mp h)).1
  rw [encode_of_applyAll h,
    ← Span.movedBy_perm
      ((Span.sorted_perm (spansOf content.toList edits)).filter _)]
  exact Span.getElem?_foldr_splice (Span.successive_sorted hfit) hb
    fun s hs => hout s ((Span.sorted_perm _).mem_iff.mp hs)

/-- Edits are applied iff their lines exist, none ends before it starts and no
two of them overlap. The bytes of the result are those of splicing them in one
at a time, from the last to the first. So what is inserted at one place stands
there in the order of the list, every byte outside the spans is kept, and the
order of edits with different spans does not matter. -/
theorem applyAll_splices (content : String) (edits : List TextEdit) :
    ((∃ updated, applyAll content edits = .ok updated) ↔
      Fit content.toList edits) ∧
    ∀ updated, applyAll content edits = .ok updated →
      (∃ ordered, (∀ spans, Span.InOrder (spansOf content.toList edits) spans ↔
        spans = ordered) ∧
        Utf8.encode updated = ordered.foldr Span.splice (Utf8.encode content)) ∧
      (∀ offset, (spansOf content.toList edits).filter
        (Span.liesAt offset offset) ≠ [] → ∃ left right, Utf8.encode updated =
            left ++ ((spansOf content.toList edits).filter
              (Span.liesAt offset offset)).flatMap Span.newBytes ++ right ∧
          left.length =
            Span.movedBy ((spansOf content.toList edits).filter
              (·.start < offset)) offset) ∧
      (∀ (offset : Nat) (b : UInt8), (Utf8.encode content)[offset]? = some b →
        (∀ s ∈ spansOf content.toList edits, offset < s.start ∨
          s.stop ≤ offset) →
        (Utf8.encode updated)[Span.movedBy
          ((spansOf content.toList edits).filter (·.start ≤ offset)) offset]? =
          some b) ∧
      ∀ edits', Reordered content.toList edits edits' →
      applyAll content edits' = .ok updated := by
  refine ⟨?_, fun updated h => ⟨?_, ?_, ?_, ?_⟩⟩
  · constructor
    · rintro ⟨updated, h⟩
      exact (Span.applyTo_eq_ok_iff.mp (applyAll_eq_ok_iff.mp h)).1
    · intro hfit
      exact ⟨_, by rw [applyAll, Span.applyTo_eq_ok_iff.mpr ⟨hfit, rfl⟩]⟩
  · refine ⟨Span.sorted (spansOf content.toList edits), fun spans => ?_,
      encode_of_applyAll h⟩
    constructor
    · intro hordered
      exact hordered.eq_sorted
    · rintro rfl
      exact Span.inOrder_sorted _
  · intro offset hinsert
    exact inserts_of_applyAll h hinsert
  · intro offset b hb hout
    exact getElem?_of_applyAll h hb hout
  · intro edits' hreordered
    exact applyAll_eq_ok_iff.mpr
      (applyTo_reordered (applyAll_eq_ok_iff.mp h) hreordered)

end TextEdit
end CodeIntel
