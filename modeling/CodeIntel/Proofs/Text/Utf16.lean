import CodeIntel.Report.Signatures

/-!
# UTF-16

The 16-bit units of a text, and the text that is shown for units which need not
be UTF-16. A slice of the units of a text may start or stop inside a pair. What
it shows can be read off the characters: each one that lies in the slice with
all its units is shown as it is, and one that is cut through as a replacement
mark.
-/

namespace CodeIntel
namespace Utf16

/-! # Units -/

def isHigh (u : UInt16) : Bool :=
  0xD800 ≤ u.toNat && u.toNat < 0xDC00

def isLow (u : UInt16) : Bool :=
  0xDC00 ≤ u.toNat && u.toNat < 0xE000

def highOf (c : Char) : UInt16 :=
  UInt16.ofNat (0xD800 + (c.toNat - 0x10000) / 0x400)

def lowOf (c : Char) : UInt16 :=
  UInt16.ofNat (0xDC00 + (c.toNat - 0x10000) % 0x400)

def encodeChar (c : Char) : List UInt16 :=
  if c.toNat < 0x10000 then [UInt16.ofNat c.toNat] else [highOf c, lowOf c]

def encode (text : List Char) : List UInt16 :=
  text.flatMap encodeChar

def single (u : UInt16) : Char :=
  if isHigh u || isLow u then Utf8.replacement else Char.ofNat u.toNat

def paired (u v : UInt16) : Char :=
  Char.ofNat (0x10000 + (u.toNat - 0xD800) * 0x400 + (v.toNat - 0xDC00))

/-- The text of any units, each that lacks its partner shown as a replacement
mark. -/
def lossy : List UInt16 → List Char
  | [] => []
  | [u] => [single u]
  | u :: v :: rest =>
    if isHigh u && isLow v then paired u v :: lossy rest
    else single u :: lossy (v :: rest)

/-! # Units of one character -/

theorem toNat_not_surrogate (c : Char) :
    c.toNat < 0xD800 ∨ 0xDFFF < c.toNat ∧ c.toNat < 0x110000 :=
  c.valid

theorem encode_cons (c : Char) (rest : List Char) :
    encode (c :: rest) = encodeChar c ++ encode rest :=
  List.flatMap_cons

theorem encode_append (front rest : List Char) :
    encode (front ++ rest) = encode front ++ encode rest :=
  List.flatMap_append

theorem length_encodeChar (c : Char) :
    (encodeChar c).length = Text.unitsOf c := by
  rw [encodeChar, Text.unitsOf]
  split <;> rfl

theorem length_encode (text : List Char) :
    (encode text).length = Text.units text := by
  induction text with
  | nil =>
      rfl
  | cons c rest ih =>
      rw [encode_cons, List.length_append, length_encodeChar, ih, Text.units]

theorem toNat_highOf (c : Char) :
    (highOf c).toNat = 0xD800 + (c.toNat - 0x10000) / 0x400 := by
  have hvalid := toNat_not_surrogate c
  have hlt : 0xD800 + (c.toNat - 0x10000) / 0x400 < 0x10000 := by omega
  exact UInt16.toNat_ofNat_of_lt hlt

theorem toNat_lowOf (c : Char) :
    (lowOf c).toNat = 0xDC00 + (c.toNat - 0x10000) % 0x400 := by
  have hlt : 0xDC00 + (c.toNat - 0x10000) % 0x400 < 0x10000 := by omega
  exact UInt16.toNat_ofNat_of_lt hlt

theorem isHigh_highOf (c : Char) : isHigh (highOf c) = true := by
  have hvalid := toNat_not_surrogate c
  simp only [isHigh, toNat_highOf, Bool.and_eq_true, decide_eq_true_eq]
  omega

theorem isLow_lowOf (c : Char) : isLow (lowOf c) = true := by
  simp only [isLow, toNat_lowOf, Bool.and_eq_true, decide_eq_true_eq]
  omega

theorem paired_eq {c : Char} (h : ¬ c.toNat < 0x10000) :
    paired (highOf c) (lowOf c) = c := by
  have hcode :
      0x10000 + (0xD800 + (c.toNat - 0x10000) / 0x400 - 0xD800) * 0x400 +
      (0xDC00 + (c.toNat - 0x10000) % 0x400 - 0xDC00) = c.toNat := by omega
  rw [paired, toNat_highOf, toNat_lowOf, hcode, Char.ofNat_toNat]

theorem single_highOf (c : Char) : single (highOf c) = Utf8.replacement := by
  rw [single, isHigh_highOf, Bool.true_or, if_pos rfl]

theorem single_lowOf (c : Char) : single (lowOf c) = Utf8.replacement := by
  rw [single, isLow_lowOf, Bool.or_true, if_pos rfl]

/-! # Texts of units -/

theorem lossy_cons {u : UInt16} (h : isHigh u = false) (rest : List UInt16) :
    lossy (u :: rest) = single u :: lossy rest := by
  cases rest with
  | nil =>
      rfl
  | cons v rest =>
      rw [lossy, h, Bool.false_and, if_neg Bool.false_ne_true]

theorem lossy_lowOf_cons (c : Char) (rest : List UInt16) :
    lossy (lowOf c :: rest) = Utf8.replacement :: lossy rest := by
  have hhigh : isHigh (lowOf c) = false := by
    simp only [isHigh, toNat_lowOf, Bool.and_eq_false_iff,
      decide_eq_false_iff_not]
    omega
  rw [lossy_cons hhigh, single_lowOf]

theorem lossy_encodeChar_append (c : Char) (rest : List UInt16) :
    lossy (encodeChar c ++ rest) = c :: lossy rest := by
  rw [encodeChar]
  split
  · next hbasic =>
      have hvalid := toNat_not_surrogate c
      have hcode : (UInt16.ofNat c.toNat).toNat = c.toNat :=
        UInt16.toNat_ofNat_of_lt hbasic
      have hhigh : isHigh (UInt16.ofNat c.toNat) = false := by
        simp only [isHigh, hcode, Bool.and_eq_false_iff,
          decide_eq_false_iff_not]
        omega
      have hlow : isLow (UInt16.ofNat c.toNat) = false := by
        simp only [isLow, hcode, Bool.and_eq_false_iff, decide_eq_false_iff_not]
        omega
      rw [List.singleton_append, lossy_cons hhigh, single, hhigh, hlow,
        Bool.or_false, if_neg Bool.false_ne_true, hcode, Char.ofNat_toNat]
  · next hbeyond =>
      rw [List.cons_append, List.singleton_append, lossy, isHigh_highOf,
        isLow_lowOf, Bool.true_and, if_pos rfl, paired_eq hbeyond]

theorem lossy_encode (text : List Char) : lossy (encode text) = text := by
  induction text with
  | nil =>
      rfl
  | cons c rest ih =>
      rw [encode_cons, lossy_encodeChar_append, ih]

/-! # Slices -/

theorem slice_eq_nil {α : Type} {items : List α} {start stop : Nat}
    (h : min stop items.length ≤ start) :
    (items.take stop).drop start = [] := by
  rw [List.drop_eq_nil_iff, List.length_take]
  exact h

theorem slice_append (front rest : List UInt16) (start stop : Nat) :
    ((front ++ rest).take stop).drop start = (front.take stop).drop start ++
      (rest.take (stop - front.length)).drop (start - front.length) := by
  rw [List.take_append, List.drop_append, List.length_take]
  rcases Nat.le_total front.length stop with hle | hle
  · rw [Nat.min_eq_right hle]
  · rw [Nat.sub_eq_zero_of_le hle, List.take_zero, List.drop_nil, List.drop_nil]

theorem lossy_cut {c : Char} {start stop : Nat}
    (hpart : ¬ (start = 0 ∧ Text.unitsOf c ≤ stop))
    (hcut : start < min stop (Text.unitsOf c)) (rest : List UInt16) :
    lossy (((encodeChar c).take stop).drop start ++
        (rest.take (stop - Text.unitsOf c)).drop (start - Text.unitsOf c)) =
      [Utf8.replacement] ++
        lossy ((rest.take (stop - Text.unitsOf c)).drop
          (start - Text.unitsOf c)) := by
  rw [Text.unitsOf] at hpart hcut ⊢
  by_cases hbasic : c.toNat < 0x10000
  · rw [if_pos hbasic] at hpart hcut
    omega
  · rw [if_neg hbasic] at hpart hcut ⊢
    rw [encodeChar, if_neg hbasic]
    have hcases : start = 0 ∧ stop = 1 ∨ start = 1 ∧ 2 ≤ stop := by omega
    rcases hcases with ⟨rfl, rfl⟩ | ⟨rfl, hstop⟩
    · show [single (highOf c)] = [Utf8.replacement]
      rw [single_highOf]
    · have htake : [highOf c, lowOf c].take stop = [highOf c, lowOf c] :=
        List.take_of_length_le hstop
      rw [htake]
      exact lossy_lowOf_cons c _

theorem lossy_slice_cons (c : Char) (rest : List UInt16) (start stop : Nat) :
    lossy (((encodeChar c ++ rest).take stop).drop start) =
      (if start = 0 ∧ Text.unitsOf c ≤ stop then [c]
        else if start < min stop (Text.unitsOf c) then [Utf8.replacement]
        else []) ++
      lossy ((rest.take (stop - Text.unitsOf c)).drop
        (start - Text.unitsOf c)) := by
  rw [slice_append, length_encodeChar]
  split
  · next hwhole =>
      have htake : (encodeChar c).take stop = encodeChar c :=
        List.take_of_length_le (by rw [length_encodeChar]; exact hwhole.2)
      rw [hwhole.1, List.drop_zero, htake, lossy_encodeChar_append,
        List.singleton_append]
  · next hpart =>
      split
      · next hcut =>
          exact lossy_cut hpart hcut rest
      · next hout =>
          have hbehind : min stop (encodeChar c).length ≤ start := by
            rw [length_encodeChar]
            exact Nat.le_of_not_lt hout
          rw [slice_eq_nil hbehind, List.nil_append, List.nil_append]

/-- The units from `start` to `stop` of a text show what is read off its
characters. -/
theorem lossy_slice (text : List Char) (start stop offset : Nat) :
    lossy (((encode text).take (stop - offset)).drop (start - offset)) =
      Report.unitSlice start stop offset text := by
  induction text generalizing offset with
  | nil =>
      rw [encode, List.flatMap_nil, List.take_nil, List.drop_nil]
      rfl
  | cons c rest ih =>
      have hpos := Text.unitsOf_pos c
      have hwhole : (start - offset = 0 ∧ Text.unitsOf c ≤ stop - offset) ↔
          (start ≤ offset ∧ offset + Text.unitsOf c ≤ stop) := by omega
      have hcut : start - offset < min (stop - offset) (Text.unitsOf c) ↔
          max start offset < min stop (offset + Text.unitsOf c) := by omega
      rw [encode_cons, lossy_slice_cons, Nat.sub_sub, Nat.sub_sub, ih,
        Report.unitSlice]
      simp only [hwhole, hcut]

theorem slice_encode (front middle back : List Char) :
    ((encode (front ++ middle ++ back)).take
      (Text.units (front ++ middle))).drop (Text.units front) =
      encode middle := by
  rw [← length_encode, ← length_encode, encode_append (front ++ middle),
    List.take_left, encode_append, List.drop_left]

end Utf16
end CodeIntel
