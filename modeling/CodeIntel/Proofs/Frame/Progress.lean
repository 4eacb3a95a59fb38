import CodeIntel.Frame.Buffer

/-!
# Reading makes progress

Every result after which reading goes on takes at least one byte of the stream.
So the results of a stream do not depend on how many of them are asked for
beyond its length.
-/

namespace CodeIntel
namespace Frame

/-! # Header blocks -/

theorem cutLine_rest_lt {bytes : List UInt8} (h : bytes ≠ []) :
    (cutLine bytes).rest.length < bytes.length := by
  have hparts := congrArg List.length (cutLine_append bytes)
  have hline := List.length_pos_iff.mpr (cutLine_line_ne_nil h)
  rw [List.length_append] at hparts
  omega

theorem readHeaders_block_lt {h said : Headers} {started : Bool}
    {s rest : Stream} (hread : readHeaders h started s = (.block said, rest)) :
    rest.bytes.length < s.bytes.length := by
  fun_induction readHeaders h started s with
  | case1 | case2 | case3 | case4 =>
      exact nomatch hread
  | case5 h started s hne cut =>
      obtain rfl : (⟨cut.rest, s.failure⟩ : Stream) = rest :=
        (Prod.mk.inj hread).2
      exact cutLine_rest_lt hne
  | case6 h started s hne cut hwhole text hclass ih =>
      exact Nat.lt_trans (ih hread) (cutLine_rest_lt hne)
  | case7 h started s hne cut hwhole fault hclass ih =>
      exact Nat.lt_trans (ih hread) (cutLine_rest_lt hne)

theorem readHeaders_rest_suffix (h : Headers) (started : Bool) (s : Stream) :
    (readHeaders h started s).2.bytes <:+ s.bytes := by
  have hcut (bytes : List UInt8) : (cutLine bytes).rest <:+ bytes :=
    ⟨_, cutLine_append bytes⟩
  fun_induction readHeaders h started s with
  | case1 | case2 | case3 =>
      exact List.suffix_refl _
  | case4 =>
      exact List.nil_suffix
  | case5 h started s hne cut =>
      exact hcut s.bytes
  | case6 h started s hne cut hwhole text hclass ih =>
      exact ih.trans (hcut s.bytes)
  | case7 h started s hne cut hwhole fault hclass ih =>
      exact ih.trans (hcut s.bytes)

theorem readHeaders_done {h : Headers} {started : Bool} {s rest : Stream}
    (hread : readHeaders h started s = (.done, rest)) :
    started = false ∧ s.bytes = [] ∧ rest = s := by
  fun_induction readHeaders h started s with
  | case1 | case2 | case4 | case5 =>
      exact nomatch hread
  | case3 h s hnil hfailure =>
      exact ⟨rfl, hnil, (Prod.mk.inj hread).2.symm⟩
  | case6 h started s hne cut hwhole text hclass ih =>
      -- the block has begun with the line that was read
      exact nomatch (ih hread).1
  | case7 h started s hne cut hwhole fault hclass ih =>
      exact nomatch (ih hread).1

theorem readHeaders_fault_isFatal {h : Headers} {started : Bool}
    {s rest : Stream} {f : TransportFault}
    (hread : readHeaders h started s = (.fault f, rest)) :
    f.isFatal = true := by
  fun_induction readHeaders h started s with
  | case1 | case2 | case4 =>
      obtain ⟨hfault, -⟩ := Prod.mk.inj hread
      rw [← HeaderResult.fault.inj hfault]
      rfl
  | case3 | case5 =>
      exact nomatch hread
  | case6 h started s hne cut hwhole text hclass ih =>
      exact ih hread
  | case7 h started s hne cut hwhole fault hclass ih =>
      exact ih hread

/-! # Bodies -/

theorem skipBody_rest_suffix (s : Stream) (length : Nat) (p : Problem) :
    (skipBody s length p).2.bytes <:+ s.bytes := by
  rw [skipBody, Buffer.dropExactly?_eq]
  by_cases h : length ≤ s.bytes.length
  · rw [if_pos h]
    exact List.drop_suffix length s.bytes
  · rw [if_neg h]
    exact List.nil_suffix

theorem readBody_rest_suffix (s : Stream) (length : Nat) :
    (readBody s length).2.bytes <:+ s.bytes := by
  rw [readBody, Buffer.dropExactly?_eq]
  by_cases h : length ≤ s.bytes.length
  · rw [if_pos h]
    exact List.drop_suffix length s.bytes
  · rw [if_neg h]
    exact List.nil_suffix

/-! # Frames -/

/-- A result after which reading goes on has taken at least one byte. -/
theorem read_rest_lt {s : Stream} (h : (read s).1.continues = true) :
    (read s).2.bytes.length < s.bytes.length := by
  unfold read at h ⊢
  split at h
  · exact nomatch h
  · next f rest hread =>
      have hfatal := readHeaders_fault_isFatal hread
      simp [ReadResult.continues, hfatal] at h
  · next length rest hread =>
      have hlt := readHeaders_block_lt hread
      split
      · exact Nat.lt_of_le_of_lt
          (readBody_rest_suffix rest length).length_le hlt
      · exact Nat.lt_of_le_of_lt
          (skipBody_rest_suffix rest length _).length_le hlt
  · next length p rest hread =>
      exact Nat.lt_of_le_of_lt (skipBody_rest_suffix rest length p).length_le
        (readHeaders_block_lt hread)
  · next p rest hread =>
      exact readHeaders_block_lt hread

theorem read_rest_suffix (s : Stream) : (read s).2.bytes <:+ s.bytes := by
  have hblock := readHeaders_rest_suffix {} false s
  unfold read
  split
  · next rest hread =>
      rwa [hread] at hblock
  · next f rest hread =>
      rwa [hread] at hblock
  · next length rest hread =>
      rw [hread] at hblock
      split
      · exact (readBody_rest_suffix rest length).trans hblock
      · exact (skipBody_rest_suffix rest length _).trans hblock
  · next length p rest hread =>
      rw [hread] at hblock
      exact (skipBody_rest_suffix rest length p).trans hblock
  · next p rest hread =>
      rwa [hread] at hblock

theorem bodyResult_ne_done (text : Option String) :
    bodyResult text ≠ .done := by
  unfold bodyResult
  split
  · exact nofun
  · exact nofun

theorem read_done {s : Stream} (h : (read s).1 = .done) :
    s.bytes = [] ∧ (read s).2 = s := by
  have hskip (rest : Stream) (length : Nat) (p : Problem) :
      (skipBody rest length p).1 ≠ .done := by
    unfold skipBody
    split
    · exact nofun
    · exact nofun
  unfold read at h ⊢
  split at h
  · next rest hread =>
      exact (readHeaders_done hread).2
  · exact nomatch h
  · next length rest hread =>
      split at h
      · unfold readBody at h
        split at h
        · exact absurd h (bodyResult_ne_done _)
        · exact nomatch h
      · exact absurd h (hskip rest length _)
  · next length p rest hread =>
      exact absurd h (hskip rest length p)
  · exact nomatch h

theorem continues_iff {r : ReadResult} : r.continues = true ↔
    (∃ value, r = .frame value) ∨ ∃ p, r = .fault (.malformedFrame p) := by
  cases r with
  | frame value =>
      simp [ReadResult.continues]
  | fault f =>
      cases f <;> simp [ReadResult.continues, TransportFault.isFatal]
  | done =>
      simp [ReadResult.continues]

theorem readAllWith_succ (fuel : Nat) (s : Stream) :
    readAllWith (fuel + 1) s =
      if (read s).1.continues then (read s).1 :: readAllWith fuel (read s).2
      else [(read s).1] := rfl

/-- The results do not depend on the number of rounds, if there are more of them
than bytes. -/
theorem readAllWith_congr {fuel more : Nat} {s : Stream}
    (hfuel : s.bytes.length < fuel) (hmore : s.bytes.length < more) :
    readAllWith fuel s = readAllWith more s := by
  induction fuel generalizing more s with
  | zero =>
      exact absurd hfuel (Nat.not_lt_zero _)
  | succ fuel ih =>
      obtain ⟨more, rfl⟩ :=
        Nat.exists_eq_succ_of_ne_zero (Nat.ne_of_gt (Nat.zero_lt_of_lt hmore))
      rw [readAllWith_succ, readAllWith_succ]
      split
      · next hgoes =>
          have hrest := read_rest_lt hgoes
          rw [ih (show (read s).2.bytes.length < fuel by omega)
            (show (read s).2.bytes.length < more by omega)]
      · rfl

theorem readAll_step (s : Stream) :
    readAll s = if (read s).1.continues then (read s).1 :: readAll (read s).2
      else [(read s).1] := by
  rw [readAll, readAllWith_succ]
  split
  · next hgoes =>
      rw [readAll, readAllWith_congr (read_rest_lt hgoes) (Nat.lt_succ_self _)]
  · rfl

end Frame
end CodeIntel
