import CodeIntel.Text.Blank
import CodeIntel.Text.Numeral
import Mathlib.Data.List.TakeWhile

/-!
# Numerals that were written

A number that is written in decimal is read back, and its digits are no blanks,
so that trimming takes nothing from them.
-/

namespace CodeIntel

/-! # Digits -/

namespace Numeral

theorem digit?_of_isDigit {c : Char} (h : c.isDigit = true) :
    digit? c = some (c.toNat - 48) := by
  rw [Char.isDigit, Bool.and_eq_true, decide_eq_true_eq, decide_eq_true_eq] at h
  exact if_pos h

theorem not_mem_toDigits {c : Char} (h : c.isDigit = false) (n : Nat) :
    c ∉ Nat.toDigits 10 n := by
  intro hmem
  rw [Nat.isDigit_of_mem_toDigits (by decide) (by decide) hmem] at h
  exact Bool.noConfusion h

theorem le_ofDigitChars (digits : List Char) (acc : Nat) :
    acc ≤ Nat.ofDigitChars 10 digits acc := by
  induction digits generalizing acc with
  | nil =>
      exact Nat.le_of_eq Nat.ofDigitChars_nil.symm
  | cons c rest ih =>
      rw [Nat.ofDigitChars_cons]
      exact Nat.le_trans (by omega) (ih _)

theorem digitsFrom_eq {bound : Nat} {digits : List Char}
    (hdigits : ∀ c ∈ digits, c.isDigit = true) {acc : Nat}
    (hbound : Nat.ofDigitChars 10 digits acc ≤ bound) :
    digitsFrom bound acc digits = .ok (Nat.ofDigitChars 10 digits acc) := by
  induction digits generalizing acc with
  | nil =>
      rw [Nat.ofDigitChars_nil]
      rfl
  | cons c rest ih =>
      have hc : c.isDigit = true := hdigits c List.mem_cons_self
      have hrest : ∀ d ∈ rest, d.isDigit = true :=
        fun d hd => hdigits d (List.mem_cons_of_mem c hd)
      have hvalue : Nat.ofDigitChars 10 (c :: rest) acc =
          Nat.ofDigitChars 10 rest (acc * 10 + (c.toNat - 48)) := by
        rw [Nat.ofDigitChars_cons, Nat.mul_comm]
        rfl
      rw [hvalue] at hbound ⊢
      have hle : acc * 10 + (c.toNat - 48) ≤ bound :=
        Nat.le_trans (le_ofDigitChars rest _) hbound
      simp only [digitsFrom, digit?_of_isDigit hc]
      rw [if_pos hle]
      exact ih hrest hbound

theorem read_digits {bound : Nat} {digits : List Char} (hne : digits ≠ [])
    (hdigits : ∀ c ∈ digits, c.isDigit = true) :
    read bound digits = digitsFrom bound 0 digits := by
  cases digits with
  | nil =>
      exact absurd rfl hne
  | cons c rest =>
      have hplus : c ≠ '+' := by
        rintro rfl
        exact absurd (hdigits '+' List.mem_cons_self) (by decide)
      unfold read
      split
      · next heq =>
          exact nomatch heq
      · next heq =>
          exact absurd (List.cons.inj heq).1 hplus
      · next heq =>
          exact absurd (List.cons.inj heq).1 hplus
      · rfl

theorem read_toDigits {bound n : Nat} (h : n ≤ bound) :
    read bound (Nat.toDigits 10 n) = .ok n := by
  have hdigits : ∀ c ∈ Nat.toDigits 10 n, c.isDigit = true :=
    fun c hc => Nat.isDigit_of_mem_toDigits (by decide) (by decide) hc
  have hvalue : Nat.ofDigitChars 10 (Nat.toDigits 10 n) 0 = n :=
    Nat.ofDigitChars_ten_toDigits
  rw [read_digits Nat.toDigits_ne_nil hdigits,
    digitsFrom_eq hdigits (by rwa [hvalue]), hvalue]

end Numeral

/-! # Blanks -/

namespace Text

theorem not_isBlank_of_isDigit {c : Char} (h : c.isDigit = true) :
    isBlank c = false := by
  have hlo : 48 ≤ c.toNat := by
    rw [Char.isDigit, Bool.and_eq_true, decide_eq_true_eq] at h
    exact h.1
  have hhi : c.toNat ≤ 57 := by
    rw [Char.isDigit, Bool.and_eq_true, decide_eq_true_eq,
      decide_eq_true_eq] at h
    exact h.2
  simp [isBlank, inRanges, blankRanges]
  omega

theorem trimStart_cons {c : Char} (h : isBlank c = false) (s : List Char) :
    trimStart (c :: s) = c :: s :=
  List.dropWhile_cons_of_neg (by simp [h])

theorem trimEnd_snoc {c : Char} (h : isBlank c = false) (s : List Char) :
    trimEnd (s ++ [c]) = s ++ [c] := by
  rw [trimEnd, List.reverse_append, List.reverse_singleton,
    List.singleton_append, List.dropWhile_cons_of_neg (by simp [h]),
    List.reverse_cons, List.reverse_reverse]

theorem trimEnd_append_blank {c : Char} (h : isBlank c = true) (s : List Char) :
    trimEnd (s ++ [c]) = trimEnd s := by
  rw [trimEnd, List.reverse_append, List.reverse_singleton,
    List.singleton_append, List.dropWhile_cons_of_pos h, trimEnd]

theorem trim_cons_ne_nil {c : Char} (h : isBlank c = false) (s : List Char) :
    trim (c :: s) ≠ [] := by
  rw [trim, trimStart_cons h, trimEnd]
  intro hnil
  rw [List.reverse_eq_nil_iff, List.dropWhile_eq_nil_iff] at hnil
  have hblank := hnil c (by simp)
  rw [h] at hblank
  exact Bool.noConfusion hblank

theorem trimEnd_digits {digits : List Char} (hne : digits ≠ [])
    (hdigits : ∀ c ∈ digits, c.isDigit = true) (s : List Char) :
    trimEnd (s ++ digits) = s ++ digits := by
  rcases List.eq_nil_or_concat digits with rfl | ⟨init, c, rfl⟩
  · exact absurd rfl hne
  · rw [List.concat_eq_append, ← List.append_assoc]
    exact trimEnd_snoc (not_isBlank_of_isDigit (hdigits c (by simp))) _

theorem trim_space_digits {digits : List Char} (hne : digits ≠ [])
    (hdigits : ∀ c ∈ digits, c.isDigit = true) :
    trim (' ' :: digits) = digits := by
  have hstart : trimStart (' ' :: digits) = digits := by
    rw [trimStart, List.dropWhile_cons_of_pos (by decide)]
    cases digits with
    | nil =>
        exact absurd rfl hne
    | cons c rest =>
        exact trimStart_cons
          (not_isBlank_of_isDigit (hdigits c List.mem_cons_self)) rest
  rw [trim, hstart]
  exact trimEnd_digits hne hdigits []

end Text

end CodeIntel
