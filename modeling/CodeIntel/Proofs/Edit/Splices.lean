import CodeIntel.Edit.Spans
import CodeIntel.Proofs.Edit.Positions
import CodeIntel.Text.Utf8
import CodeIntel.Totals

/-!
# Splices of bytes

Spans that stand one behind the other can be replaced one at a time in the bytes
of a text, from the last to the first: what a splice does behind a span leaves
the offsets in front of it alone. Hence every byte outside the spans is kept, as
far from its old place as the replacements in front of it have made the text
grow, and what is inserted at one place stands there in the order of the list.
The single pass over the text comes to the same bytes.
-/

namespace CodeIntel

/-! # The bytes of a list of characters -/

namespace Utf8

def encodeChars (text : List Char) : List UInt8 :=
  encode (String.ofList text)

theorem encodeChars_append (s t : List Char) :
    encodeChars (s ++ t) = encodeChars s ++ encodeChars t := by
  simp [encodeChars, encode]

theorem encodeChars_injective {s t : List Char}
    (h : encodeChars s = encodeChars t) : s = t := by
  have hstrings := congrArg String.toList (encode_injective h)
  rwa [String.toList_ofList, String.toList_ofList] at hstrings

theorem length_encodeChars (text : List Char) :
    (encodeChars text).length = Text.bytes text := by
  induction text with
  | nil =>
      rfl
  | cons c rest ih =>
      rw [encodeChars, encode_ofList_cons, List.length_append,
        String.length_utf8EncodeChar, Text.bytes, ← ih, encodeChars]

theorem encodeChars_toList (text : String) :
    encodeChars text.toList = encode text := by
  rw [encodeChars, String.ofList_toList]

end Utf8

namespace Span

/-! # One splice at a time -/

def newBytes (s : Span) : List UInt8 :=
  Utf8.encodeChars s.newText

def splice (s : Span) (bytes : List UInt8) : List UInt8 :=
  bytes.take s.start ++ s.newBytes ++ bytes.drop s.stop

/-- No span ends before it starts, and each starts where the ones before it have
ended. -/
structure Successive (spans : List Span) : Prop where
  forward : ∀ s ∈ spans, s.start ≤ s.stop
  apart : spans.Pairwise fun s t => s.stop ≤ t.start

theorem Successive.tail {s : Span} {rest : List Span}
    (h : Successive (s :: rest)) :
    Successive rest :=
  ⟨fun t ht =>
    h.forward t (List.mem_cons_of_mem s ht), (List.pairwise_cons.mp h.apart).2⟩

theorem Successive.behind_head {s : Span} {rest : List Span}
    (h : Successive (s :: rest)) :
    ∀ t ∈ rest, s.stop ≤ t.start :=
  (List.pairwise_cons.mp h.apart).1

theorem Successive.stop_le {spans : List Span} (h : Successive spans)
    {s t : Span} (hs : s ∈ spans) (ht : t ∈ spans) (hlt : s.start < t.start) :
    s.stop ≤ t.start := by
  induction spans with
  | nil =>
      exact absurd hs List.not_mem_nil
  | cons head rest ih =>
      have hforward : head.start ≤ head.stop :=
        h.forward head List.mem_cons_self
      rcases List.mem_cons.mp hs with heq | hs
      · subst heq
        rcases List.mem_cons.mp ht with heq | ht
        · rw [heq] at hlt
          exact absurd hlt (Nat.lt_irrefl _)
        · exact h.behind_head t ht
      · rcases List.mem_cons.mp ht with heq | ht
        · have hbehind := h.behind_head s hs
          rw [heq] at hlt
          omega
        · exact ih h.tail hs ht

theorem Successive.filter {spans : List Span} (h : Successive spans)
    (p : Span → Bool) :
    Successive (spans.filter p) :=
  ⟨fun s hs => h.forward s (List.mem_filter.mp hs).1, h.apart.filter p⟩

variable {spans : List Span} {bytes : List UInt8} {offset : Nat}

theorem le_length_of_take_eq {bytes' : List UInt8}
    (h : bytes'.take offset = bytes.take offset)
    (hlength : offset ≤ bytes.length) : offset ≤ bytes'.length := by
  have hlen := congrArg List.length h
  rw [List.length_take, List.length_take] at hlen
  omega

theorem take_foldr_splice (hlength : offset ≤ bytes.length)
    (hspans : ∀ s ∈ spans, offset ≤ s.start) :
    (spans.foldr splice bytes).take offset = bytes.take offset := by
  induction spans with
  | nil =>
      rfl
  | cons s rest ih =>
      have hrest := ih fun t ht => hspans t (List.mem_cons_of_mem s ht)
      have hstart : offset ≤ s.start := hspans s List.mem_cons_self
      have hkept : offset ≤ (rest.foldr splice bytes).length :=
        le_length_of_take_eq hrest hlength
      rw [List.foldr_cons, splice, List.append_assoc,
        List.take_append_of_le_length
        (by rw [List.length_take]; omega), List.take_take,
        Nat.min_eq_left hstart, hrest]

theorem le_length_foldr_splice (hlength : offset ≤ bytes.length)
    (hspans : ∀ s ∈ spans, offset ≤ s.start) :
    offset ≤ (spans.foldr splice bytes).length :=
  le_length_of_take_eq (take_foldr_splice hlength hspans) hlength

theorem foldr_splice_append (h : Successive spans)
    (hspans : ∀ s ∈ spans, s.stop ≤ bytes.length)
    (rest : List UInt8) :
    spans.foldr splice (bytes ++ rest) = spans.foldr splice bytes ++ rest := by
  induction spans with
  | nil =>
      rfl
  | cons s spans ih =>
      have hstop : s.stop ≤ (spans.foldr splice bytes).length :=
        le_length_foldr_splice (hspans s List.mem_cons_self) h.behind_head
      have hstart : s.start ≤ (spans.foldr splice bytes).length :=
        Nat.le_trans (h.forward s List.mem_cons_self) hstop
      rw [List.foldr_cons, ih h.tail fun t ht =>
        hspans t (List.mem_cons_of_mem s ht), List.foldr_cons,
        splice, List.take_append_of_le_length hstart,
        List.drop_append_of_le_length hstop, splice,
        List.append_assoc, List.append_assoc, List.append_assoc]

/-! # Where an offset moves -/

/-- The place of an offset once the spans in front of it are replaced. -/
def movedBy (spans : List Span) (offset : Nat) : Nat :=
  offset + sumOf (fun s => s.newBytes.length) spans -
    sumOf (fun s => s.stop - s.start) spans

theorem movedBy_perm {xs ys : List Span} (h : xs.Perm ys) (offset : Nat) :
    movedBy xs offset = movedBy ys offset := by
  rw [movedBy, movedBy, sumOf_perm _ h, sumOf_perm _ h]

theorem length_foldr_splice (h : Successive spans)
    (hspans : ∀ s ∈ spans, s.stop ≤ bytes.length) :
    (spans.foldr splice bytes).length = movedBy spans bytes.length := by
  have hsum :
      (spans.foldr splice bytes).length + sumOf (fun s =>
        s.stop - s.start) spans =
      bytes.length + sumOf (fun s => s.newBytes.length) spans := by
    induction spans with
    | nil =>
        rfl
    | cons s spans ih =>
        have hrest := ih h.tail fun t ht => hspans t (List.mem_cons_of_mem s ht)
        have hstop : s.stop ≤ (spans.foldr splice bytes).length :=
          le_length_foldr_splice (hspans s List.mem_cons_self) h.behind_head
        have hforward : s.start ≤ s.stop := h.forward s List.mem_cons_self
        simp only [List.foldr_cons, splice, List.length_append,
          List.length_take, List.length_drop, sumOf_cons]
        omega
  rw [movedBy]
  omega

theorem filter_append_filter_not {α : Type} {p : α → Bool} {xs : List α}
    (h : xs.Pairwise fun a b => p b = true → p a = true) :
    xs.filter p ++ xs.filter (fun a => !p a) = xs := by
  induction xs with
  | nil =>
      rfl
  | cons x rest ih =>
      rcases List.pairwise_cons.mp h with ⟨hx, hrest⟩
      by_cases hp : p x = true
      · simp [hp, ih hrest]
      · have hnone : rest.filter p = [] := by
          rw [List.filter_eq_nil_iff]
          intro y hy hpy
          exact hp (hx y hy hpy)
        have hall : rest.filter (fun a => !p a) = rest := by
          have hih := ih hrest
          rwa [hnone, List.nil_append] at hih
        simp [hp, hnone, hall]

theorem Successive.filter_append (h : Successive spans) (bound : Nat) :
    spans.filter (·.start < bound) ++
      spans.filter (fun s => !decide (s.start < bound)) = spans := by
  apply filter_append_filter_not
  refine h.apart.imp_of_mem fun {s t} hs _ hst hstart => ?_
  have hforward := h.forward s hs
  simp only [decide_eq_true_eq] at hstart ⊢
  omega

theorem le_start_of_mem_filter {bound : Nat} :
    ∀ s ∈ spans.filter (fun s => !decide (s.start < bound)),
    bound ≤ s.start := by
  intro s hs
  simpa using (List.mem_filter.mp hs).2

/-- Replacing spans on both sides of an offset: the two sides do not disturb
each other. -/
theorem foldr_splice_at (bytes : List UInt8) {front back : List Span}
    (h : Successive front) (hlength : offset ≤ bytes.length)
    (hfront : ∀ s ∈ front, s.stop ≤ offset)
    (hback : ∀ s ∈ back, offset ≤ s.start) :
    ∃ left, (front ++ back).foldr splice bytes =
      left ++ (back.foldr splice bytes).drop offset ∧
      left.length = movedBy front offset := by
  have htake : (bytes.take offset).length = offset := by
    rw [List.length_take]
    omega
  have hfits : ∀ s ∈ front, s.stop ≤ (bytes.take offset).length := by
    rw [htake]
    exact hfront
  refine ⟨front.foldr splice (bytes.take offset), ?_, ?_⟩
  · have hsplit : back.foldr splice bytes =
        bytes.take offset ++ (back.foldr splice bytes).drop offset := by
      rw [← take_foldr_splice hlength hback, List.take_append_drop]
    rw [List.foldr_append]
    exact (congrArg (front.foldr splice) hsplit).trans
      (foldr_splice_append h hfits _)
  · rw [length_foldr_splice h hfits, htake]

theorem getElem?_foldr_splice (h : Successive spans) {b : UInt8}
    (hb : bytes[offset]? = some b)
    (hout : ∀ s ∈ spans, offset < s.start ∨ s.stop ≤ offset) :
    (spans.foldr splice bytes)[movedBy (spans.filter (·.start ≤ offset))
      offset]? = some b := by
  have hstarts : spans.filter (·.start ≤ offset) =
      spans.filter (·.start < offset + 1) := by
    simp only [Nat.lt_succ_iff]
  have hlength : offset + 1 ≤ bytes.length :=
    (List.getElem?_eq_some_iff.mp hb).1
  have hfront : ∀ s ∈ spans.filter (·.start < offset + 1), s.stop ≤ offset := by
    intro s hs
    rcases List.mem_filter.mp hs with ⟨hmem, hstart⟩
    have hbelow : s.start < offset + 1 := of_decide_eq_true hstart
    exact (hout s hmem).resolve_left (by omega)
  rcases foldr_splice_at bytes (h.filter _) (Nat.le_of_succ_le hlength) hfront
    (fun s hs => Nat.le_of_succ_le (le_start_of_mem_filter s hs)) with
    ⟨left, heq, hleft⟩
  rw [h.filter_append] at heq
  rw [hstarts, heq, ← hleft, List.getElem?_append_right (Nat.le_refl _),
    Nat.sub_self, List.getElem?_drop,
    Nat.add_zero, ← List.getElem?_take_of_lt (Nat.lt_succ_self offset),
    take_foldr_splice hlength le_start_of_mem_filter,
    List.getElem?_take_of_lt (Nat.lt_succ_self offset), hb]

/-! # Texts that are inserted at one place -/

def liesAt (start stop : Nat) (s : Span) : Bool :=
  s.start = start && s.stop = stop

theorem liesAt_iff {start stop : Nat} {s : Span} :
    liesAt start stop s = true ↔ s.start = start ∧ s.stop = stop := by
  simp [liesAt]

theorem foldr_splice_inserts {inserts : List Span}
    (h : ∀ s ∈ inserts, liesAt offset offset s = true)
    (hlength : offset ≤ bytes.length) : inserts.foldr splice bytes =
      bytes.take offset ++ (inserts.flatMap newBytes ++ bytes.drop offset) := by
  induction inserts with
  | nil =>
      simp
  | cons s rest ih =>
      have hs : s.start = offset ∧ s.stop = offset :=
        liesAt_iff.mp (h s List.mem_cons_self)
      have htake : (bytes.take offset).length = offset := by
        rw [List.length_take]
        omega
      rw [List.foldr_cons, ih fun t ht => h t (List.mem_cons_of_mem s ht),
        splice, hs.1, hs.2, List.take_left' htake, List.drop_left' htake,
        List.flatMap_cons, List.append_assoc, List.append_assoc]

/-- Behind an offset the inserts at it come first: a span in front of one has no
width either. -/
theorem foldr_splice_behind (h : Successive spans)
    (hlength : offset ≤ bytes.length)
    (hbehind : ∀ s ∈ spans, offset ≤ s.start) :
    ∃ right, (spans.foldr splice bytes).drop offset =
      (spans.filter (liesAt offset offset)).flatMap newBytes ++ right := by
  have hsplit : spans.filter (liesAt offset offset) ++
      spans.filter (fun s => !liesAt offset offset s) = spans := by
    apply filter_append_filter_not
    refine h.apart.imp_of_mem fun {s t} hs _ hst hlies => ?_
    have hforward := h.forward s hs
    have hstart := hbehind s hs
    have ht := liesAt_iff.mp hlies
    rw [liesAt_iff]
    omega
  have hback :
      ∀ s ∈ spans.filter (fun s => !liesAt offset offset s), offset ≤ s.start :=
    fun s hs => hbehind s (List.mem_filter.mp hs).1
  have hkept :
      offset ≤ ((spans.filter fun s => !liesAt offset offset s).foldr splice
        bytes).length :=
    le_length_foldr_splice hlength hback
  have hfold := congrArg (List.foldr splice bytes) hsplit
  rw [List.foldr_append,
    foldr_splice_inserts (fun s hs => (List.mem_filter.mp hs).2) hkept] at hfold
  rw [← hfold, List.drop_left' (List.length_take_of_le hkept)]
  exact ⟨_, rfl⟩

theorem foldr_splice_of_inserts (h : Successive spans)
    (hlength : offset ≤ bytes.length)
    (hinsert : spans.filter (liesAt offset offset) ≠ []) :
    ∃ left right, spans.foldr splice bytes =
        left ++ (spans.filter (liesAt offset offset)).flatMap newBytes ++
          right ∧
      left.length = movedBy (spans.filter (·.start < offset)) offset := by
  rcases List.exists_mem_of_ne_nil _ hinsert with ⟨i, hi⟩
  rcases List.mem_filter.mp hi with ⟨himem, hiends⟩
  have histart : i.start = offset := (liesAt_iff.mp hiends).1
  have hfront : ∀ s ∈ spans.filter (·.start < offset), s.stop ≤ offset := by
    intro s hs
    rcases List.mem_filter.mp hs with ⟨hmem, hstart⟩
    rw [← histart]
    exact h.stop_le hmem himem (histart ▸ of_decide_eq_true hstart)
  have hsame :
      (spans.filter fun s => !decide (s.start < offset)).filter
        (liesAt offset offset) =
      spans.filter (liesAt offset offset) := by
    rw [List.filter_filter]
    apply List.filter_congr
    intro s _
    by_cases hlies : liesAt offset offset s = true
    · simp [hlies, (liesAt_iff.mp hlies).1]
    · simp [hlies]
  rcases foldr_splice_at bytes (h.filter _) hlength hfront
      le_start_of_mem_filter with
    ⟨left, heq, hleft⟩
  rcases foldr_splice_behind (h.filter _) hlength le_start_of_mem_filter with
    ⟨right, hright⟩
  rw [h.filter_append, hright, hsame, ← List.append_assoc] at heq
  exact ⟨left, right, heq, hleft⟩

/-! # The single pass -/

theorem splice_encodeChars {s : Span} {front gone : List Char}
    (hstart : Text.bytes front = s.start)
    (hstop : Text.bytes (front ++ gone) = s.stop) (behind : List Char) :
    splice s (Utf8.encodeChars (front ++ gone ++ behind)) =
      Utf8.encodeChars (front ++ s.newText ++ behind) := by
  have htake : (Utf8.encodeChars (front ++ gone ++ behind)).take s.start =
      Utf8.encodeChars front := by
    rw [List.append_assoc, Utf8.encodeChars_append,
      List.take_left' (by rw [Utf8.length_encodeChars, hstart])]
  have hdrop : (Utf8.encodeChars (front ++ gone ++ behind)).drop s.stop =
      Utf8.encodeChars behind := by
    rw [Utf8.encodeChars_append,
      List.drop_left' (by rw [Utf8.length_encodeChars, hstop])]
  rw [splice, htake, hdrop, newBytes, ← Utf8.encodeChars_append,
    ← Utf8.encodeChars_append]

/-- The pass over the text, which takes each span from the text as it was, comes
to the same bytes as the splices, which take it from what the later ones have
left. -/
theorem encodeChars_rewriteFrom (h : Successive spans) (front : List Char)
    {text : List Char}
    (hbounds : ∀ s ∈ spans, Offset.IsBoundary (front ++ text) s.start ∧
      Offset.IsBoundary (front ++ text) s.stop)
    (hbehind : ∀ s ∈ spans, Text.bytes front ≤ s.start) :
    Utf8.encodeChars (front ++ rewriteFrom (Text.bytes front) text spans) =
      spans.foldr splice (Utf8.encodeChars (front ++ text)) := by
  induction spans generalizing front text with
  | nil =>
      rfl
  | cons s rest ih =>
      have hforward : s.start ≤ s.stop := h.forward s List.mem_cons_self
      have hreached : Text.bytes front ≤ s.start := hbehind s List.mem_cons_self
      rcases hbounds s List.mem_cons_self with ⟨hfirst, hlast⟩
      rcases hfirst.behind hreached with ⟨mid, tail, rfl, hmid⟩
      have hstart : Text.bytes (front ++ mid) = s.start := by
        rw [Text.bytes_append]
        omega
      rw [← List.append_assoc] at hlast
      rcases hlast.behind (hstart ▸ hforward) with ⟨gone, behind, rfl, hgone⟩
      have hstop : Text.bytes (front ++ mid ++ gone) = s.stop := by
        rw [Text.bytes_append]
        omega
      have hbefore :
          Offset.before (s.start - Text.bytes front) (mid ++ (gone ++ behind)) =
            mid := by
        rw [← hmid, Offset.before_bytes]
      have hafter :
          Offset.behind (s.stop - Text.bytes front) (mid ++ (gone ++ behind)) =
            behind := by
        have hskip : s.stop - Text.bytes front = Text.bytes (mid ++ gone) := by
          rw [← hstop, List.append_assoc, Text.bytes_append front,
            Nat.add_sub_cancel_left]
        rw [hskip, ← List.append_assoc, Offset.behind_bytes]
      have hrest := ih h.tail (front ++ mid ++ gone)
        (fun t ht => by simpa using hbounds t (List.mem_cons_of_mem s ht))
        (fun t ht => by rw [hstop]; exact h.behind_head t ht)
      rw [hstop] at hrest
      have hsplice :=
        splice_encodeChars hstart hstop (rewriteFrom s.stop behind rest)
      rw [hrest] at hsplice
      rw [rewriteFrom, hbefore, hafter, List.foldr_cons]
      simpa only [List.append_assoc] using hsplice.symm

end Span
end CodeIntel
