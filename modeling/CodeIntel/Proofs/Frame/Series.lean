import CodeIntel.Proofs.Frame.Reading
import Mathlib.Data.List.Infix

/-!
# Reading a prefix of a series of frames

The bytes of a series of frames may break off anywhere. What is read is each
frame that lies wholly inside them, in order; then the end of the stream if they
break off between two frames, and a frame cut short if they break off inside
one.
-/

namespace CodeIntel
namespace Frame

variable {α : Type} {body : α → List UInt8} {value : α → Json}

/-! # Series -/

def series (body : α → List UInt8) (items : List α) : List UInt8 :=
  items.flatMap fun a => encodeBody (body a)

theorem series_nil : series body [] = [] := rfl

theorem series_cons (a : α) (items : List α) :
    series body (a :: items) = encodeBody (body a) ++ series body items := rfl

theorem series_take_le (items : List α) {j k : Nat} (h : j ≤ k) :
    series body (items.take j) <+: series body (items.take k) :=
  (List.take_prefix_take_left h).flatMap _

/-- Of the frames of some items, the first `k` and no more end within `length`
bytes. -/
structure WholeInside (body : α → List UInt8) (items : List α)
    (length k : Nat) : Prop where
  le_length : k ≤ items.length
  ends_within_iff :
    ∀ j ≤ items.length, (series body (items.take j)).length ≤ length ↔ j ≤ k

namespace WholeInside

theorem none_of_lt {a : α} {items : List α} {length : Nat}
    (h : length < (encodeBody (body a)).length) :
    WholeInside body (a :: items) length 0 := by
  constructor
  · exact Nat.zero_le _
  · intro j _
    cases j with
    | zero =>
        simp [series_nil]
    | succ j =>
        rw [List.take_succ_cons, series_cons, List.length_append]
        constructor
        · omega
        · omega

theorem of_empty (length : Nat) : WholeInside body ([] : List α) length 0 := by
  constructor
  · exact Nat.le_refl 0
  · intro j hj
    rw [Nat.le_zero.mp hj, List.take_nil, series_nil]
    exact iff_of_true (Nat.zero_le length) (Nat.le_refl 0)

theorem cons {a : α} {items : List α} {length k : Nat}
    (h : WholeInside body items length k) :
    WholeInside body (a :: items) ((encodeBody (body a)).length + length)
      (k + 1) := by
  constructor
  · exact Nat.succ_le_succ h.le_length
  · intro j hj
    cases j with
    | zero =>
        simp [series_nil]
    | succ j =>
        rw [List.take_succ_cons, series_cons, List.length_append,
          Nat.add_le_add_iff_left, Nat.add_le_add_iff_right]
        exact h.ends_within_iff j (Nat.le_of_succ_le_succ hj)

/-- Bytes that end between two frames are the frames that lie wholly inside
them. -/
theorem eq_series_iff {items : List α} {bytes : List UInt8} {k : Nat}
    (h : WholeInside body items bytes.length k) :
    bytes = series body (items.take k) ↔
    ∃ j ≤ items.length, bytes = series body (items.take j) := by
  constructor
  · intro hbytes
    exact ⟨k, h.le_length, hbytes⟩
  · rintro ⟨j, hj, hbytes⟩
    have hwithin : j ≤ k := by
      apply (h.ends_within_iff j hj).mp
      rw [← hbytes]
    have hlength : (series body (items.take k)).length ≤
        (series body (items.take j)).length := by
      rw [← hbytes]
      exact (h.ends_within_iff k h.le_length).mpr (Nat.le_refl k)
    rw [hbytes]
    exact (series_take_le items hwithin).eq_of_length_le hlength

end WholeInside

/-! # Reading them -/

/-- A body of a permitted length that is the text of a value. -/
structure Fits (body : List UInt8) (value : Json) : Prop where
  length_le : body.length ≤ maxBytes
  decoded : decodeBody body = .frame value

theorem decodeBody_nil :
    decodeBody [] = .fault (.malformedFrame .invalidBody) := by
  rfl

theorem Fits.ne_nil {body : List UInt8} {value : Json} (h : Fits body value) :
    body ≠ [] := by
  rintro rfl
  exact nomatch decodeBody_nil.symm.trans h.decoded

theorem encodeBody_ne_nil (body : List UInt8) : encodeBody body ≠ [] := by
  rw [encodeBody_eq]
  simp

/-- What is read of a series of frames that breaks off, the end included. -/
def resultsOf (body : α → List UInt8) (value : α → Json) (items : List α)
    (bytes : List UInt8) :
    List ReadResult :=
  items.map (fun a => .frame (value a)) ++
    [if bytes = series body items then .done else .fault .cutShort]

theorem readAllWith_torn {bytes : List UInt8} {a : α}
    (h : Fits (body a) (value a)) (hbegin : bytes <+: encodeBody (body a))
    (hproper : bytes ≠ encodeBody (body a)) (fuel : Nat) :
    readAllWith (fuel + 1) ⟨bytes, none⟩ = resultsOf body value [] bytes := by
  by_cases hne : bytes = []
  · rw [hne, readAllWith, read_end]
    rfl
  · rw [readAllWith, read_torn h.length_le h.ne_nil hne hbegin hproper]
    rw [resultsOf, series_nil, if_neg hne]
    rfl

theorem readAllWith_whole {a : α} (h : Fits (body a) (value a)) (items : List α)
    (bytes : List UInt8) {fuel : Nat}
    (hrest : readAllWith fuel ⟨bytes, none⟩ =
      resultsOf body value items bytes) :
    readAllWith (fuel + 1) ⟨encodeBody (body a) ++ bytes, none⟩ =
      resultsOf body value (a :: items) (encodeBody (body a) ++ bytes) := by
  rw [readAllWith, read_encodeBody h.length_le, h.decoded]
  simp only [ReadResult.continues, if_true, hrest, resultsOf, series_cons,
    List.map_cons, List.cons_append, List.append_cancel_left_eq]

theorem readAllWith_series {items : List α}
    (hfits : ∀ a ∈ items, Fits (body a) (value a))
    {bytes : List UInt8} (hbegin : bytes <+: series body items) {fuel : Nat}
    (hfuel : bytes.length < fuel) :
    ∃ k, WholeInside body items bytes.length k ∧
      readAllWith fuel ⟨bytes, none⟩ =
        resultsOf body value (items.take k) bytes := by
  induction items generalizing bytes fuel with
  | nil =>
      obtain ⟨fuel, rfl⟩ :=
        Nat.exists_eq_succ_of_ne_zero (Nat.ne_of_gt (Nat.zero_lt_of_lt hfuel))
      rw [List.prefix_nil.mp hbegin]
      refine ⟨0, WholeInside.of_empty _, ?_⟩
      rw [readAllWith, read_end]
      rfl
  | cons a items ih =>
      obtain ⟨fuel, rfl⟩ :=
        Nat.exists_eq_succ_of_ne_zero (Nat.ne_of_gt (Nat.zero_lt_of_lt hfuel))
      have ha := hfits a List.mem_cons_self
      -- the first frame is whole, or it is the one that breaks off
      by_cases hwhole : encodeBody (body a) <+: bytes
      · obtain ⟨rest, rfl⟩ := hwhole
        have hrest : rest <+: series body items :=
          (List.prefix_append_right_inj _).mp hbegin
        have hpos := List.length_pos_iff.mpr (encodeBody_ne_nil (body a))
        rw [List.length_append] at hfuel
        obtain ⟨k, hinside, hread⟩ :=
          ih (fun b hb => hfits b (List.mem_cons_of_mem a hb)) hrest
          (show rest.length < fuel by omega)
        refine ⟨k + 1, ?_, ?_⟩
        · rw [List.length_append]
          exact hinside.cons
        · rw [List.take_succ_cons]
          exact readAllWith_whole ha _ rest hread
      · have htorn : bytes <+: encodeBody (body a) :=
          (List.prefix_or_prefix_of_prefix hbegin
            (List.prefix_append _ _)).resolve_right hwhole
        have hproper : bytes ≠ encodeBody (body a) := by
          rintro rfl
          exact hwhole List.prefix_rfl
        refine ⟨0, WholeInside.none_of_lt ?_, ?_⟩
        · apply Nat.lt_of_le_of_ne htorn.length_le
          intro hlength
          exact hproper (htorn.eq_of_length hlength)
        · exact readAllWith_torn ha htorn hproper fuel

end Frame
end CodeIntel
