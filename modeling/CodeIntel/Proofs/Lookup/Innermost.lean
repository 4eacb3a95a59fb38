import CodeIntel.Lookup.Enclosing
import Mathlib.Tactic.ByContra

/-!
# The innermost symbol around a place

Nested symbols are searched from the outside to the inside. If each symbol lies
within the one above it and no position is in two symbols side by side, that
leads to the one symbol around a position which has none inside it around that
position.

Of symbols in a flat list the one with the smallest extent is taken. A range
within another one has a smaller extent, unless both begin on one line and end
on another, and the outer one ends in no later column than it begins: then the
extents are the same and the first one in the list counts.
-/

namespace CodeIntel

/-! # Ranges within ranges -/

namespace Range

/-- Each position in the one range is in the other. -/
def Within (inner outer : Range) : Prop :=
  ∀ p, inner.contains p = true → outer.contains p = true

variable {q r s : Range} {p : Position}

theorem Within.refl (r : Range) : r.Within r :=
  fun _ hp => hp

theorem Within.trans (hqr : q.Within r) (hrs : r.Within s) : q.Within s :=
  fun p hp => hrs p (hqr p hp)

theorem Within.contains (h : q.Within r) (hp : q.contains p = true) :
    r.contains p = true :=
  h p hp

theorem within_of_ends (hstart : r.start.atMost q.start = true)
    (hstop : q.stop.atMost r.stop = true) : q.Within r := by
  intro p hp
  rw [contains_iff] at hp ⊢
  exact ⟨Position.atMost_trans hstart hp.1, Position.atMost_trans hp.2 hstop⟩

theorem Within.ends (h : q.Within r) (hp : q.contains p = true) :
    r.start.atMost q.start = true ∧ q.stop.atMost r.stop = true := by
  rw [contains_iff] at hp
  have hforward : q.start.atMost q.stop = true :=
    Position.atMost_trans hp.1 hp.2
  have hstart :=
    h q.start (contains_iff.mpr ⟨Position.atMost_refl q.start, hforward⟩)
  have hstop :=
    h q.stop (contains_iff.mpr ⟨hforward, Position.atMost_refl q.stop⟩)
  exact ⟨(contains_iff.mp hstart).1, (contains_iff.mp hstop).2⟩

theorem not_contains_of_before (h : q.stop.before r.start = true)
    (hp : q.contains p = true) :
    r.contains p = false := by
  rw [Bool.eq_false_iff]
  intro hother
  have hback :=
    Position.atMost_trans (contains_iff.mp hother).1 (contains_iff.mp hp).2
  rw [Position.atMost_iff] at hback
  rw [Position.before_iff] at h
  omega

end Range

/-! # Forests of symbols -/

namespace DocumentSymbol

def inside (s : DocumentSymbol) : List DocumentSymbol :=
  s.children.getD []

mutual

def tree : DocumentSymbol → List DocumentSymbol
  | ⟨name, detail, kind, tags, deprecated, range, selectionRange, children⟩ =>
    ⟨name, detail, kind, tags, deprecated, range, selectionRange, children⟩ ::
      inner children

def inner : Option (List DocumentSymbol) → List DocumentSymbol
  | none => []
  | some symbols => forest symbols

def forest : List DocumentSymbol → List DocumentSymbol
  | [] => []
  | s :: rest => tree s ++ forest rest

end

theorem forest_cons (s : DocumentSymbol) (rest : List DocumentSymbol) :
    forest (s :: rest) = s :: forest s.inside ++ forest rest := by
  obtain ⟨name, detail, kind, tags, deprecated, range, selectionRange,
        children⟩ := s
  cases children with
  | none =>
      simp only [forest, tree, inner, inside, Option.getD_none]
  | some symbols =>
      simp only [forest, tree, inner, inside, Option.getD_some]

theorem mem_forest_cons {s t : DocumentSymbol} {rest : List DocumentSymbol} :
    t ∈ forest (s :: rest) ↔ t = s ∨ t ∈ forest s.inside ∨ t ∈ forest rest := by
  rw [forest_cons, List.cons_append, List.mem_cons, List.mem_append]

mutual

theorem inside_induction {motive : List DocumentSymbol → Prop} (nil : motive [])
    (cons : ∀ s rest, motive s.inside → motive rest → motive (s :: rest)) :
    ∀ s : DocumentSymbol, motive s.inside
  | ⟨_, _, _, _, _, _, _, none⟩ => nil
  | ⟨_, _, _, _, _, _, _, some symbols⟩ => forest_induction nil cons symbols

/-- What holds of trees if it holds of those right inside the first one and of
the others, holds of all trees. -/
@[elab_as_elim]
theorem forest_induction {motive : List DocumentSymbol → Prop} (nil : motive [])
    (cons : ∀ s rest, motive s.inside → motive rest → motive (s :: rest)) :
    ∀ symbols : List DocumentSymbol, motive symbols
  | [] => nil
  | s :: rest =>
    cons s rest (inside_induction nil cons s) (forest_induction nil cons rest)

end

theorem mem_forest_of_mem {s : DocumentSymbol} {symbols : List DocumentSymbol}
    (hs : s ∈ symbols) :
    s ∈ forest symbols := by
  induction symbols with
  | nil =>
      exact nomatch hs
  | cons first rest ih =>
      rcases List.mem_cons.mp hs with rfl | hrest
      · exact mem_forest_cons.mpr (.inl rfl)
      · exact mem_forest_cons.mpr (.inr (.inr (ih hrest)))

/-! # Symbols that nest -/

/-- No position is in two symbols that stand side by side. -/
def AreApart (symbols : List DocumentSymbol) : Prop :=
  symbols.Pairwise fun s t => ∀ p, s.range.contains p = true →
    t.range.contains p = false

structure AreNested (symbols : List DocumentSymbol) : Prop where
  roots : AreApart symbols
  siblings : ∀ s ∈ forest symbols, AreApart s.inside
  within : ∀ s ∈ forest symbols, ∀ t ∈ s.inside, t.range.Within s.range

variable {s t : DocumentSymbol} {symbols rest : List DocumentSymbol}
  {p : Position}

theorem areNested_nil : AreNested [] := by
  constructor
  · exact List.Pairwise.nil
  · intro s hs
    rw [forest] at hs
    exact nomatch hs
  · intro s hs
    rw [forest] at hs
    exact nomatch hs

theorem areNested_cons (hinside : AreNested s.inside) (hrest : AreNested rest)
    (hwithin : ∀ t ∈ s.inside, t.range.Within s.range)
    (hapart : ∀ t ∈ rest, ∀ p, s.range.contains p = true →
      t.range.contains p = false) :
    AreNested (s :: rest) := by
  constructor
  · exact List.pairwise_cons.mpr ⟨hapart, hrest.roots⟩
  · intro t ht
    rcases mem_forest_cons.mp ht with rfl | ht | ht
    · exact hinside.roots
    · exact hinside.siblings t ht
    · exact hrest.siblings t ht
  · intro t ht
    rcases mem_forest_cons.mp ht with rfl | ht | ht
    · exact hwithin
    · exact hinside.within t ht
    · exact hrest.within t ht

theorem AreNested.inside (h : AreNested (s :: rest)) : AreNested s.inside := by
  have hmem {t : DocumentSymbol} (ht : t ∈ forest s.inside) :
      t ∈ forest (s :: rest) :=
    mem_forest_cons.mpr (.inr (.inl ht))
  exact ⟨h.siblings s (mem_forest_cons.mpr (.inl rfl)), fun t ht =>
    h.siblings t (hmem ht), fun t ht => h.within t (hmem ht)⟩

theorem AreNested.tail (h : AreNested (s :: rest)) : AreNested rest := by
  have hmem {t : DocumentSymbol} (ht : t ∈ forest rest) :
      t ∈ forest (s :: rest) :=
    mem_forest_cons.mpr (.inr (.inr ht))
  exact ⟨h.roots.of_cons, fun t ht => h.siblings t (hmem ht),
    fun t ht => h.within t (hmem ht)⟩

theorem AreNested.within_root (h : AreNested symbols)
    (ht : t ∈ forest symbols) :
    ∃ root ∈ symbols, t.range.Within root.range := by
  induction symbols using forest_induction with
  | nil =>
      exact nomatch ht
  | cons s rest ihinside ihrest =>
      rcases mem_forest_cons.mp ht with rfl | hinside | hrest
      · exact ⟨t, List.mem_cons_self, .refl t.range⟩
      · obtain ⟨child, hchild, hwithin⟩ := ihinside h.inside hinside
        have hs : child.range.Within s.range :=
          h.within s (mem_forest_cons.mpr (.inl rfl)) child hchild
        exact ⟨s, List.mem_cons_self, hwithin.trans hs⟩
      · obtain ⟨root, hroot, hwithin⟩ := ihrest h.tail hrest
        exact ⟨root, List.mem_cons_of_mem s hroot, hwithin⟩

theorem AreNested.within_first (h : AreNested (s :: rest))
    (ht : t ∈ forest s.inside) :
    t.range.Within s.range := by
  obtain ⟨child, hchild, hwithin⟩ := h.inside.within_root ht
  exact hwithin.trans (h.within s (mem_forest_cons.mpr (.inl rfl)) child hchild)

/-- Around a position in the first tree there is nothing in the others. -/
theorem AreNested.not_in_rest (h : AreNested (s :: rest))
    (hp : s.range.contains p = true) (ht : t ∈ forest rest) :
    t.range.contains p = false := by
  obtain ⟨root, hroot, hwithin⟩ := h.tail.within_root ht
  have hapart : root.range.contains p = false :=
    List.rel_of_pairwise_cons h.roots hroot p hp
  rw [Bool.eq_false_iff] at hapart ⊢
  exact fun hcontains => hapart (hwithin.contains hcontains)

/-- Whether a symbol is around a position, but none of the symbols right inside
it. -/
def isInnermost (p : Position) (s : DocumentSymbol) : Bool :=
  s.range.contains p && s.inside.all fun t => !t.range.contains p

theorem isInnermost_iff : isInnermost p s = true ↔
    s.range.contains p = true ∧ ∀ t ∈ s.inside, t.range.contains p = false := by
  simp [isInnermost]

end DocumentSymbol

/-! # Nested symbols -/

namespace Lookup

open DocumentSymbol

variable {p : Position} {s : DocumentSymbol}
  {symbols rest : List DocumentSymbol}

theorem innermost_cons (p : Position) (s : DocumentSymbol)
    (rest : List DocumentSymbol) :
    innermost p (s :: rest) =
      if s.range.contains p = true then
        some ((innermost p s.inside).getD s.range)
      else innermost p rest := by
  obtain ⟨name, detail, kind, tags, deprecated, range, selectionRange,
        children⟩ := s
  cases children with
  | none =>
      simp only [innermost, innermostIn, innermostOf, inside, Option.getD_none]
  | some symbols =>
      simp only [innermost, innermostIn, innermostOf, inside, Option.getD_some]

theorem innermost_isSome (hs : s ∈ symbols) (hp : s.range.contains p = true) :
    ∃ r, innermost p symbols = some r := by
  induction symbols with
  | nil =>
      exact nomatch hs
  | cons first rest ih =>
      rw [innermost_cons]
      split
      · exact ⟨_, rfl⟩
      · next hfirst =>
          rcases List.mem_cons.mp hs with rfl | hrest
          · exact absurd hp hfirst
          · exact ih hrest

theorem contains_of_innermost {r : Range} (h : innermost p symbols = some r) :
    r.contains p = true := by
  induction symbols using forest_induction generalizing r with
  | nil =>
      rw [innermost] at h
      exact nomatch h
  | cons s rest ihinside ihrest =>
      rw [innermost_cons] at h
      split at h
      · next hs =>
          rw [← Option.some.inj h]
          cases hfound : innermost p s.inside with
          | none =>
              exact hs
          | some q =>
              exact ihinside hfound
      · exact ihrest h

theorem innermost_eq_none_of_forall
    (h : ∀ s ∈ symbols, s.range.contains p = false) :
    innermost p symbols = none := by
  induction symbols with
  | nil =>
      rw [innermost]
  | cons s rest ih =>
      rcases List.forall_mem_cons.mp h with ⟨hs, hrest⟩
      rw [innermost_cons, if_neg (Bool.eq_false_iff.mp hs)]
      exact ih hrest

theorem innermost_eq_none_iff (h : AreNested symbols) :
    innermost p symbols = none ↔
    ∀ s ∈ forest symbols, s.range.contains p = false := by
  constructor
  · intro hnone t ht
    rw [Bool.eq_false_iff]
    intro hcontains
    obtain ⟨root, hroot, hwithin⟩ := h.within_root ht
    obtain ⟨r, hr⟩ := innermost_isSome hroot (hwithin.contains hcontains)
    rw [hnone] at hr
    exact nomatch hr
  · intro hnowhere
    exact innermost_eq_none_of_forall fun s hs =>
      hnowhere s (mem_forest_of_mem hs)

theorem filter_isInnermost_of_forall
    (h : ∀ s ∈ symbols, s.range.contains p = false) :
    symbols.filter (isInnermost p) = [] := by
  rw [List.filter_eq_nil_iff]
  intro s hs hinnermost
  rw [isInnermost_iff, h s hs] at hinnermost
  exact nomatch hinnermost.1

/-- A range is that of the one innermost symbol around a position, and lies
within all others around it. -/
def IsLeast (p : Position) (symbols : List DocumentSymbol) (r : Range) : Prop :=
  ∃ s, symbols.filter (isInnermost p) = [s] ∧ s.range = r ∧
    ∀ t ∈ symbols, t.range.contains p = true → r.Within t.range

theorem isLeast_first (h : AreNested (s :: rest))
    (hs : s.range.contains p = true)
    (hinside : ∀ r, innermost p s.inside =
      some r → IsLeast p (forest s.inside) r) :
    IsLeast p (forest (s :: rest)) ((innermost p s.inside).getD s.range) := by
  have hrest : (forest rest).filter (isInnermost p) = [] :=
    filter_isInnermost_of_forall fun t ht => h.not_in_rest hs ht
  cases hfound : innermost p s.inside with
  | none =>
      have hnowhere := (innermost_eq_none_iff h.inside).mp hfound
      have hinnermost : isInnermost p s = true :=
        isInnermost_iff.mpr ⟨hs, fun t ht => hnowhere t (mem_forest_of_mem ht)⟩
      refine ⟨s, ?_, rfl, ?_⟩
      · rw [forest_cons, List.filter_append,
          List.filter_cons_of_pos hinnermost, hrest,
          filter_isInnermost_of_forall hnowhere]
        rfl
      · intro t ht hp
        rcases mem_forest_cons.mp ht with rfl | ht | ht
        · exact .refl _
        · rw [hnowhere t ht] at hp
          exact nomatch hp
        · rw [h.not_in_rest hs ht] at hp
          exact nomatch hp
  | some r =>
      obtain ⟨t, hfilter, rfl, hleast⟩ := hinside r hfound
      have ht : t ∈ forest s.inside :=
        (List.mem_filter.mp (hfilter ▸ List.mem_singleton_self t)).1
      have hnot : ¬ isInnermost p s = true := by
        intro hinnermost
        rw [innermost_eq_none_of_forall
          (isInnermost_iff.mp hinnermost).2] at hfound
        exact nomatch hfound
      refine ⟨t, ?_, rfl, ?_⟩
      · rw [forest_cons, List.filter_append, List.filter_cons_of_neg hnot,
          hfilter, hrest]
        rfl
      · intro u hu hp
        rcases mem_forest_cons.mp hu with rfl | hu | hu
        · exact h.within_first ht
        · exact hleast u hu hp
        · rw [h.not_in_rest hs hu] at hp
          exact nomatch hp

theorem isLeast_innermost (h : AreNested symbols) {r : Range}
    (hr : innermost p symbols = some r) :
    IsLeast p (forest symbols) r := by
  induction symbols using forest_induction generalizing r with
  | nil =>
      rw [innermost] at hr
      exact nomatch hr
  | cons s rest ihinside ihrest =>
      rw [innermost_cons] at hr
      split at hr
      · next hs =>
          rw [← Option.some.inj hr]
          exact isLeast_first h hs fun r hr => ihinside h.inside hr
      · next hs =>
          obtain ⟨t, hfilter, ht, hleast⟩ := ihrest h.tail hr
          have houtside :
              ∀ u ∈ s :: forest s.inside, u.range.contains p = false := by
            intro u hu
            rw [Bool.eq_false_iff]
            intro hp
            rcases List.mem_cons.mp hu with rfl | hu
            · exact hs hp
            · exact hs ((h.within_first hu).contains hp)
          refine ⟨t, ?_, ht, ?_⟩
          · rw [forest_cons, List.filter_append,
              filter_isInnermost_of_forall houtside, hfilter]
            rfl
          · intro u hu hp
            rw [forest_cons, List.mem_append] at hu
            rcases hu with hu | hu
            · rw [houtside u hu] at hp
              exact nomatch hp
            · exact hleast u hu hp

/-! # Flat symbols -/

theorem smaller_iff {a b : Range} :
    smaller a b = true ↔ (extent a).1 < (extent b).1 ∨
    (extent a).1 = (extent b).1 ∧ (extent a).2 < (extent b).2 := by
  simp [smaller]

theorem smaller_eq_false_iff {a b : Range} :
    smaller a b = false ↔ (extent b).1 < (extent a).1 ∨
    (extent b).1 = (extent a).1 ∧ (extent b).2 ≤ (extent a).2 := by
  rw [Bool.eq_false_iff, ne_eq, smaller_iff]
  omega

theorem smallest?_eq_none_iff {ranges : List Range} :
    smallest? ranges = none ↔ ranges = [] := by
  cases ranges with
  | nil =>
      simp [smallest?]
  | cons a rest =>
      rw [smallest?]
      constructor
      · intro h
        split at h
        · exact nomatch h
        · split at h <;> exact nomatch h
      · intro h
        exact nomatch h

theorem smallest?_eq_some {ranges : List Range} {r : Range}
    (h : smallest? ranges = some r) :
    ∃ front back, ranges = front ++ r :: back ∧
    (∀ q ∈ front, smaller r q = true) ∧
      ∀ q ∈ ranges, smaller q r = false := by
  induction ranges generalizing r with
  | nil =>
      exact nomatch h
  | cons a rest ih =>
      rw [smallest?] at h
      split at h
      · next hnone =>
          rw [smallest?_eq_none_iff.mp hnone, ← Option.some.inj h]
          refine ⟨[], [], rfl, List.forall_mem_nil _, ?_⟩
          intro q hq
          rw [List.mem_singleton.mp hq, smaller_eq_false_iff]
          omega
      · next s hs =>
          obtain ⟨front, back, heq, hfront, hleast⟩ := ih hs
          split at h
          · next hsmaller =>
              rw [← Option.some.inj h]
              refine ⟨a :: front, back, by rw [heq, List.cons_append],
                List.forall_mem_cons.mpr ⟨hsmaller, hfront⟩,
                List.forall_mem_cons.mpr ⟨?_, hleast⟩⟩
              rw [smaller_iff] at hsmaller
              rw [smaller_eq_false_iff]
              omega
          · next hsmaller =>
              rw [← Option.some.inj h]
              refine ⟨[], rest, rfl, List.forall_mem_nil _,
                List.forall_mem_cons.mpr ⟨?_, ?_⟩⟩
              · rw [smaller_eq_false_iff]
                omega
              · intro q hq
                have hq := hleast q hq
                rw [Bool.not_eq_true] at hsmaller
                rw [smaller_eq_false_iff] at hsmaller hq ⊢
                omega

/-- Two ranges begin on one line and end on another, and the outer one ends in
no later column than it begins. -/
structure Ties (inner outer : Range) : Prop where
  first : inner.start.line = outer.start.line
  last : inner.stop.line = outer.stop.line
  lines : outer.start.line < outer.stop.line
  columns : outer.stop.character ≤ outer.start.character

/-- A range around a position is not larger than a range that it lies within,
and smaller unless they tie. -/
theorem smaller_of_within {q r : Range} {p : Position}
    (hp : q.contains p = true) (hwithin : q.Within r) (hne : q ≠ r) :
    smaller r q = false ∧ (smaller q r = true ∨ Ties q r) := by
  obtain ⟨hstart, hstop⟩ := hwithin.ends hp
  obtain ⟨hfrom, hto⟩ := Range.contains_iff.mp hp
  have hforward := Position.atMost_trans hfrom hto
  rw [Position.atMost_iff] at hstart hstop hforward
  have hlines : r.start.line ≤ q.start.line ∧ q.start.line ≤ q.stop.line ∧
      q.stop.line ≤ r.stop.line := by
    omega
  by_cases hsame : q.start.line = r.start.line ∧ q.stop.line = r.stop.line
  · -- on the same lines the columns decide, and their difference may be cut
    -- off at zero
    have hcolumns : r.start.character ≤ q.start.character ∧
        q.stop.character ≤ r.stop.character := by
      omega
    have hends : q.start.character ≠ r.start.character ∨
        q.stop.character ≠ r.stop.character := by
      by_contra hends
      rw [not_or, not_not, not_not] at hends
      exact hne (Range.ext (Position.ext hsame.1 hends.1)
        (Position.ext hsame.2 hends.2))
    rw [smaller_eq_false_iff, smaller_iff, extent, extent, hsame.1, hsame.2]
    refine ⟨.inr ⟨rfl, by omega⟩, ?_⟩
    by_cases hback : r.stop.character ≤ r.start.character
    · exact .inr ⟨hsame.1, hsame.2, by omega, hback⟩
    · exact .inl (.inr ⟨rfl, by omega⟩)
  · have hless : (extent q).1 < (extent r).1 := by
      rw [extent, extent]
      omega
    exact ⟨smaller_eq_false_iff.mpr (.inl hless),
      .inl (smaller_iff.mpr (.inl hless))⟩

/-! # The symbol around a place -/

theorem contains_of_enclosing {response : Option DocumentSymbols} {r : Range}
    (h : enclosing p response = some r) : r.contains p = true := by
  cases response with
  | none =>
      exact nomatch h
  | some response =>
      cases response with
      | nested symbols =>
          exact contains_of_innermost h
      | flat symbols =>
          obtain ⟨front, back, heq, -⟩ := smallest?_eq_some h
          have hmem : r ∈ front ++ r :: back :=
            List.mem_append_right front List.mem_cons_self
          rw [← heq] at hmem
          exact (List.mem_filter.mp hmem).2

/-- Of nested symbols nothing is found iff no symbol, at whatever depth, is
around the position. What is found otherwise is the range of the one symbol that
is around the position and has none right inside it that is, and it lies within
the ranges of all others around the position. -/
theorem nested_answer_is_innermost {symbols : List DocumentSymbol}
    (h : AreNested symbols) (p : Position) :
    (enclosing p (some (.nested symbols)) = none ↔
      ∀ s ∈ forest symbols, s.range.contains p = false) ∧
    ∀ r, enclosing p (some (.nested symbols)) = some r →
      ∃ s, (forest symbols).filter (isInnermost p) = [s] ∧ s.range = r ∧
        ∀ t ∈ forest symbols, t.range.contains p = true → r.Within t.range :=
  ⟨innermost_eq_none_iff h, fun _ hr => isLeast_innermost h hr⟩

def functionOver (first last : Nat) : DocumentSymbol :=
  ⟨"f", none, .functionKind, none, none, ⟨⟨first, 0⟩, ⟨last, 1⟩⟩,
    ⟨⟨first, 0⟩, ⟨first, 1⟩⟩, none⟩

def smallClass : DocumentSymbol :=
  ⟨"C", none, .classKind, none, none, ⟨⟨0, 0⟩, ⟨9, 1⟩⟩, ⟨⟨0, 6⟩, ⟨0, 7⟩⟩,
    some [functionOver 1 3, functionOver 4 8]⟩

theorem areNested_functions {first last : Nat} {rest : List DocumentSymbol}
    (hrest : AreNested rest) (h : ∀ t ∈ rest, last < t.range.start.line) :
    AreNested (functionOver first last :: rest) := by
  refine areNested_cons areNested_nil hrest (List.forall_mem_nil _) ?_
  intro t ht p hp
  exact Range.not_contains_of_before
    (Position.before_iff.mpr (.inl (h t ht))) hp

theorem areNested_smallClass : AreNested [smallClass, functionOver 11 12] := by
  refine areNested_cons ?_ ?_ ?_ ?_
  · exact areNested_functions
      (areNested_functions areNested_nil (List.forall_mem_nil _))
      (by simp [functionOver])
  · exact areNested_functions areNested_nil (List.forall_mem_nil _)
  · refine List.forall_mem_cons.mpr ⟨?_, List.forall_mem_singleton.mpr ?_⟩
    · exact Range.within_of_ends (by decide) (by decide)
    · exact Range.within_of_ends (by decide) (by decide)
  · intro t ht p hp
    rw [List.mem_singleton.mp ht]
    exact Range.not_contains_of_before (by decide) hp

theorem second_function_is_innermost :
    AreNested [smallClass, functionOver 11 12] ∧
    enclosing ⟨5, 0⟩ (some (.nested [smallClass, functionOver 11 12])) =
      some ⟨⟨4, 0⟩, ⟨8, 1⟩⟩ ∧
    ∃ s, (forest [smallClass, functionOver 11 12]).filter (isInnermost ⟨5, 0⟩) =
      [s] ∧ s.range = ⟨⟨4, 0⟩, ⟨8, 1⟩⟩ := by
  have hfound :
      enclosing ⟨5, 0⟩ (some (.nested [smallClass, functionOver 11 12])) =
      some ⟨⟨4, 0⟩, ⟨8, 1⟩⟩ := by
    rfl
  obtain ⟨s, hs, hrange, -⟩ :=
    (nested_answer_is_innermost areNested_smallClass ⟨5, 0⟩).2 _ hfound
  exact ⟨areNested_smallClass, hfound, s, hs, hrange⟩

/-- Of flat symbols nothing is found iff no range is around the position. What
is found otherwise is a range in the list and around the position. Another range
around the position lies within it only if the two tie, and then it comes later
in the list. -/
theorem flat_answer_is_innermost_but_ties (symbols : List SymbolInformation)
    (p : Position) :
    (enclosing p (some (.flat symbols)) = none ↔
      ∀ s ∈ symbols, s.location.range.contains p = false) ∧
    ∀ r, enclosing p (some (.flat symbols)) = some r →
      ∃ front back, symbols.map (fun s => s.location.range) =
        front ++ r :: back ∧ r.contains p = true ∧
        ∀ q ∈ front ++ r :: back, q.contains p = true → q.Within r → q ≠ r →
          Ties q r ∧ q ∉ front := by
  constructor
  · rw [enclosing, smallest?_eq_none_iff, List.filter_eq_nil_iff]
    simp
  · intro r hr
    obtain ⟨front, back, heq, hfront, hleast⟩ := smallest?_eq_some hr
    obtain ⟨before, rest, hranges, hbefore, hrest⟩ :=
      List.filter_eq_append_iff.mp heq
    obtain ⟨between, after, hsplit, hbetween, hcontains, -⟩ :=
      List.filter_eq_cons_iff.mp hrest
    refine ⟨before ++ between, after, ?_, hcontains, ?_⟩
    · rw [hranges, hsplit, List.append_assoc]
    · intro q hq hp hwithin hne
      rw [List.append_assoc, ← hsplit, ← hranges] at hq
      obtain ⟨hlarger, hties⟩ := smaller_of_within hp hwithin hne
      have hnot : smaller q r = false := hleast q (List.mem_filter.mpr ⟨hq, hp⟩)
      rw [hnot] at hties
      refine ⟨hties.resolve_left Bool.false_ne_true, ?_⟩
      intro hearlier
      rcases List.mem_append.mp hearlier with hin | hin
      · have hsmaller := hfront q (hbefore ▸ List.mem_filter.mpr ⟨hin, hp⟩)
        rw [hlarger] at hsmaller
        exact nomatch hsmaller
      · exact hbetween q hin hp

def smallObject : SymbolInformation :=
  ⟨"a", .variableKind, none, none, ⟨⟨"file:///a.js"⟩, ⟨⟨0, 4⟩, ⟨2, 2⟩⟩⟩, none⟩

def objectFunction : SymbolInformation :=
  ⟨"b", .functionKind, none, none, ⟨⟨"file:///a.js"⟩, ⟨⟨0, 10⟩, ⟨2, 1⟩⟩⟩,
    some "a"⟩

theorem objectFunction_within :
    objectFunction.location.range.Within smallObject.location.range :=
  Range.within_of_ends (by decide) (by decide)

theorem object_ties_with_function :
    enclosing ⟨0, 10⟩ (some (.flat [smallObject, objectFunction])) =
      some smallObject.location.range ∧
    objectFunction.location.range.contains ⟨0, 10⟩ = true ∧
    objectFunction.location.range.Within smallObject.location.range ∧
    objectFunction.location.range ≠ smallObject.location.range ∧
    Ties objectFunction.location.range smallObject.location.range := by
  have hfound : enclosing ⟨0, 10⟩ (some (.flat [smallObject, objectFunction])) =
      some smallObject.location.range := by
    decide
  obtain ⟨front, back, hlist, -, hothers⟩ :=
    (flat_answer_is_innermost_but_ties [smallObject, objectFunction] ⟨0, 10⟩).2
      _ hfound
  have hlisted : objectFunction.location.range ∈ front ++
      smallObject.location.range :: back := by
    rw [← hlist]
    simp
  have hties := hothers _ hlisted (by decide) objectFunction_within (by decide)
  exact ⟨hfound, by decide, objectFunction_within, by decide, hties.1⟩

/-- What is found among flat symbols need not be innermost: another range around
the position may begin behind its start and end in front of its end. -/
theorem flat_answer_hides_function :
    enclosing ⟨0, 10⟩ (some (.flat [smallObject, objectFunction])) =
      some smallObject.location.range ∧
    objectFunction.location.range.contains ⟨0, 10⟩ = true ∧
    smallObject.location.range.start.before
      objectFunction.location.range.start = true ∧
    objectFunction.location.range.stop.before smallObject.location.range.stop =
      true := by
  decide

end Lookup
end CodeIntel
