import CodeIntel.Lookup.Match
import Mathlib.Data.List.Forall2

/-!
# Which names a query finds

The rules in one formula. A query finds a symbol by its whole name. A query
without a dot or a colon also finds names that end in it behind a separator, and
types by a part of their names or by the name in another case. The rules for
methods and for variables accept no symbol that an earlier rule does not.
-/

namespace CodeIntel
namespace Lookup

/-! # Parts of names -/

theorem occursIn_iff {part text : List Char} :
    occursIn part text = true ↔ part <:+: text := by
  induction text with
  | nil =>
      rw [occursIn, List.isEmpty_iff, List.infix_nil]
  | cons c rest ih =>
      rw [occursIn, Bool.or_eq_true, List.isPrefixOf_iff_prefix, ih,
        List.infix_cons_iff]

theorem endsIn_iff {separator query name : String} :
    endsIn separator query name = true ↔
    separator.toList ++ query.toList <:+ name.toList := by
  rw [endsIn, List.isSuffixOf_iff_suffix]

theorem isQualified_eq_false_iff {query : String} :
    isQualified query = false ↔ '.' ∉ query.toList ∧ ':' ∉ query.toList := by
  simp only [isQualified, List.any_eq_false, Bool.or_eq_true,
    decide_eq_true_eq, not_or]
  constructor
  · intro h
    exact ⟨fun hdot => (h _ hdot).1 rfl, fun hcolon => (h _ hcolon).2 rfl⟩
  · rintro ⟨hdot, hcolon⟩ c hc
    exact ⟨fun heq => hdot (heq ▸ hc), fun heq => hcolon (heq ▸ hc)⟩

theorem suffix_of_lastSegment? {name segment : List Char}
    (h : lastSegment? name = some segment) :
    [':', ':'] ++ segment <:+ name := by
  induction name with
  | nil =>
      exact nomatch h
  | cons c rest ih =>
      rw [lastSegment?] at h
      split at h
      · next later hlater =>
          rw [Option.some.inj h] at hlater
          exact (ih hlater).trans (List.suffix_cons c rest)
      · split at h
        · next hcolons =>
            obtain ⟨hc, hhead⟩ := hcolons
            obtain ⟨tail, htail⟩ := List.head?_eq_some_iff.mp hhead
            have hsegment : tail = segment := by simpa [htail] using h
            rw [hc, htail, hsegment]
            exact List.suffix_refl _
        · exact nomatch h

/-! # Letters -/

/-- A capital letter of ASCII and its small form. -/
def IsCasePair (capital small : Char) : Prop :=
  ∃ i < 26, capital.toNat = 'A'.toNat + i ∧ small.toNat = 'a'.toNat + i

/-- Two characters are the same, or two forms of one ASCII letter. -/
def SameUpToCase (a b : Char) : Prop :=
  a = b ∨ IsCasePair a b ∨ IsCasePair b a

theorem toNat_toLower (c : Char) :
    c.toLower.toNat = if 65 ≤ c.toNat ∧
    c.toNat ≤ 90 then c.toNat + 32 else c.toNat := by
  have hcapital : (c.val ≥ 'A'.val ∧ c.val ≤ 'Z'.val) ↔ 65 ≤ c.toNat ∧
      c.toNat ≤ 90 := Iff.rfl
  unfold Char.toLower
  split
  · next h =>
      have hrange := hcapital.mp h
      have hadd : (c.val + 32).toNat = c.toNat + 32 := by
        rw [UInt32.toNat_add]
        exact Nat.mod_eq_of_lt (by show c.toNat + 32 < _; omega)
      rw [if_pos hrange]
      exact hadd
  · next h =>
      rw [if_neg (mt hcapital.mpr h)]

theorem toLower_eq_iff {a b : Char} :
    a.toLower = b.toLower ↔ SameUpToCase a b := by
  have heq (c d : Char) : c = d ↔ c.toNat = d.toNat := Char.toNat_inj.symm
  have hpair (c d : Char) : IsCasePair c d ↔
      65 ≤ c.toNat ∧ c.toNat ≤ 90 ∧ d.toNat = c.toNat + 32 := by
    constructor
    · rintro ⟨i, hi, hc, hd⟩
      have hA : 'A'.toNat = 65 := rfl
      have ha : 'a'.toNat = 97 := rfl
      omega
    · rintro ⟨hlow, hhigh, hd⟩
      exact ⟨c.toNat - 65, by omega, by show _ = 65 + _; omega,
        by show _ = 97 + _; omega⟩
  rw [SameUpToCase, hpair, hpair, heq, heq, toNat_toLower, toNat_toLower]
  split <;> split <;> omega

theorem sameLetters_iff {s t : String} :
    sameLetters s t = true ↔ List.Forall₂ SameUpToCase s.toList t.toList := by
  rw [sameLetters, decide_eq_true_eq, ← List.forall₂_eq_eq_eq,
    List.forall₂_map_left_iff, List.forall₂_map_right_iff]
  simp only [toLower_eq_iff]

/-! # The rules -/

variable {query name : String} {kind : SymbolKind} {container : Option String}

theorem eq_of_callableRule (h : callableRule query name kind container = true) :
    name = query := by
  simp only [callableRule, Bool.and_eq_true, decide_eq_true_eq] at h
  exact h.1.2

theorem qualifiedRule_of_valueRule (h : valueRule query name kind = true) :
    qualifiedRule query name = true := by
  simp only [valueRule, Bool.and_eq_true, decide_eq_true_eq] at h
  rw [qualifiedRule, Bool.or_eq_true, endsIn_iff]
  exact .inl (suffix_of_lastSegment? h.2)

theorem isMatch_eq (query name : String) (kind : SymbolKind)
    (container : Option String) :
    isMatch query name kind container =
      (name = query || !isQualified query &&
        (qualifiedRule query name || typeRule query name kind)) := by
  rw [isMatch]
  by_cases hname : name = query
  · simp [hname]
  · have hcallable : callableRule query name kind container = false :=
      Bool.eq_false_iff.mpr fun h => hname (eq_of_callableRule h)
    have hvalue : (qualifiedRule query name || typeRule query name kind ||
          valueRule query name kind) =
        (qualifiedRule query name || typeRule query name kind) := by
      cases hrule : valueRule query name kind with
      | false =>
          rw [Bool.or_false]
      | true =>
          rw [qualifiedRule_of_valueRule hrule]
          rfl
    rw [hcallable, Bool.or_false, hvalue]
    cases isQualified query <;> simp [hname]

theorem typeRule_iff : typeRule query name kind = true ↔ kind.isType = true ∧
    (List.Forall₂ SameUpToCase name.toList query.toList ∨
      query.toList <:+: name.toList) := by
  rw [typeRule, Bool.and_eq_true, Bool.or_eq_true, sameLetters_iff,
    occursIn_iff]

theorem isType_iff : kind.isType = true ↔
    kind = .classKind ∨ kind = .structKind ∨ kind = .interfaceKind ∨
    kind = .enumKind := by
  simp [SymbolKind.isType, or_assoc]

/-- A query matches a symbol iff it is its name, or has no separator in it and
either ends the name behind one or, if the symbol is a type, is a part of the
name or the name in another case. So the container does not matter, and the kind
only as far as it is a type. The rule for methods and the one for variables
accept nothing that an earlier rule does not. -/
theorem matches_by_three_rules (query name : String) (kind : SymbolKind)
    (container : Option String) :
    (isMatch query name kind container = true ↔ name = query ∨
      ('.' ∉ query.toList ∧ ':' ∉ query.toList) ∧
        ("::".toList ++ query.toList <:+ name.toList ∨
          ".".toList ++ query.toList <:+ name.toList ∨
          (kind = .classKind ∨ kind = .structKind ∨ kind = .interfaceKind ∨
            kind = .enumKind) ∧
            (List.Forall₂ SameUpToCase name.toList query.toList ∨
              query.toList <:+: name.toList))) ∧
    (∀ other otherContainer, other.isType = kind.isType →
      isMatch query name other otherContainer =
        isMatch query name kind container) ∧
    (callableRule query name kind container = true → name = query) ∧
    (valueRule query name kind = true → qualifiedRule query name = true) := by
  refine ⟨?_, ?_, eq_of_callableRule, qualifiedRule_of_valueRule⟩
  · rw [isMatch_eq, Bool.or_eq_true, decide_eq_true_eq, Bool.and_eq_true,
      Bool.not_eq_true', isQualified_eq_false_iff, Bool.or_eq_true,
      qualifiedRule, Bool.or_eq_true, endsIn_iff, endsIn_iff,
      typeRule_iff, isType_iff, or_assoc]
  · intro other otherContainer htype
    rw [isMatch_eq, isMatch_eq, typeRule, typeRule, htype]

/-- A constant is found by the last segment of its name, as a variable without a
container is. -/
theorem constant_matches_by_segment :
    valueRule "MAX" "limits::MAX" .constantKind = true ∧
    qualifiedRule "MAX" "limits::MAX" = true ∧
    SymbolKind.variableKind.isType = SymbolKind.constantKind.isType ∧
    isMatch "MAX" "limits::MAX" .variableKind none =
      isMatch "MAX" "limits::MAX" .constantKind (some "limits") := by
  have h : valueRule "MAX" "limits::MAX" .constantKind = true := by decide
  have hrules :=
    matches_by_three_rules "MAX" "limits::MAX" .constantKind (some "limits")
  exact ⟨h, hrules.2.2.2 h, by decide, hrules.2.1 _ _ (by decide)⟩

end Lookup
end CodeIntel
