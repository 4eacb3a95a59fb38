import CodeIntel.Mock.Server
import CodeIntel.Proofs.Edit.Reversed
import CodeIntel.Proofs.Json.Members

/-!
# Marker words and their diagnostics

The scripted server reports one diagnostic for each line that holds a marker
word, about the first occurrence of that word. It writes the bytes in front of
the word where the protocol counts 16-bit units. A character beyond ASCII has
more bytes than units, so a diagnostic encloses its word iff the word has only
ASCII in front of it on its line.
-/

namespace CodeIntel

/-! # Units and bytes -/

namespace Text

theorem unitsOf_cases (c : Char) :
    c.toNat < 128 ∧ unitsOf c = c.utf8Size ∨ 128 ≤ c.toNat ∧
    unitsOf c < c.utf8Size := by
  unfold unitsOf Char.utf8Size
  simp only [UInt32.le_iff_toNat_le, Char.toNat, UInt32.toNat_ofNatLT]
  split_ifs <;> omega

theorem units_le_bytes (text : List Char) : units text ≤ bytes text := by
  induction text with
  | nil =>
      exact Nat.le_refl 0
  | cons c rest ih =>
      have hc := unitsOf_cases c
      rw [units, bytes]
      omega

theorem units_eq_bytes_iff {text : List Char} :
    units text = bytes text ↔ ∀ c ∈ text, c.toNat < 128 := by
  induction text with
  | nil =>
      exact iff_of_true rfl (List.forall_mem_nil _)
  | cons c rest ih =>
      have hc := unitsOf_cases c
      have hrest := units_le_bytes rest
      rw [List.forall_mem_cons, ← ih, units, bytes]
      omega

end Text

/-! # Lines in their text -/

namespace Text

def above (text : List Char) (number : Nat) : List Char :=
  ((closedLines text).take number).flatten

theorem above_below {line : List Char} (h : '\n' ∉ line) (rest : List Char)
    (number : Nat) :
    above (line ++ '\n' :: rest) (number + 1) =
      line ++ '\n' :: above rest number := by
  rw [above, closedLines_below h, List.take_succ_cons, List.flatten_cons,
    List.append_assoc, List.singleton_append, above]

/-- Where a line stands in its text, and what the columns of its number stand
for. A carriage return at the very end of the text is part of the last line, but
no column leads behind it. -/
theorem line_at {text line : List Char} {number : Nat}
    (h : (lines text)[number]? = some line) :
    (∃ rest, text = above text number ++ line ++ rest) ∧
    ∃ shown, (shown = line ∨ shown = bare line) ∧ ∀ column,
      Offset.ofPosition? text ⟨number, column⟩ =
        some (bytes (above text number) + Offset.ofColumn column 0 shown) := by
  induction text using line_induction generalizing number with
  | last text htext =>
      cases number with
      | zero =>
          have hne : text ≠ [] := by
            rintro rfl
            cases h
          rw [lines_of_not_mem htext hne] at h
          obtain rfl : text = line := Option.some.inj h
          refine ⟨⟨[], (List.append_nil text).symm⟩, bare text, .inr rfl,
            fun column => ?_⟩
          have hfirst : Offset.firstLine (text ++ []) = bare text :=
            Offset.firstLine_append htext (.inl rfl)
          rw [List.append_nil] at hfirst
          rw [Offset.ofPosition?, Offset.at?, hfirst]
          exact congrArg some (Nat.zero_add _).symm
      | succ number =>
          by_cases hne : text = []
          · rw [hne] at h
            cases h
          · rw [lines_of_not_mem htext hne] at h
            cases h
  | below first rest hfirst ih =>
      rw [lines_below hfirst] at h
      cases number with
      | zero =>
          obtain rfl : bare first = line := Option.some.inj h
          refine ⟨?_, bare first, .inl rfl, fun column => ?_⟩
          · rcases bare_cases first with ⟨front, hline, hbare⟩ | ⟨-, hbare⟩
            · rw [hbare, hline]
              exact ⟨'\r' :: '\n' :: rest, by simp [above]⟩
            · rw [hbare]
              exact ⟨'\n' :: rest, rfl⟩
          · rw [Offset.ofPosition?, Offset.at?,
              Offset.firstLine_append hfirst (.inr rfl)]
            exact congrArg some (Nat.zero_add _).symm
      | succ number =>
          rcases ih h with ⟨⟨behind, hplace⟩, shown, hshown, hcolumns⟩
          rw [above_below hfirst]
          refine ⟨⟨behind, ?_⟩, shown, hshown, fun column => ?_⟩
          · rw [List.append_assoc, List.append_assoc, List.cons_append,
              ← List.append_assoc _ line, ← hplace]
          · have hbelow := hcolumns column
            rw [Offset.ofPosition?] at hbelow ⊢
            rw [Offset.at?_below hfirst, hbelow, Offset.bytes_below,
              Option.map_some, Nat.add_assoc, Nat.add_assoc, Nat.add_assoc]

end Text

/-! # Columns counted in bytes -/

namespace Offset

/-- The column of a character, counted in bytes, stands for its place iff there
is only ASCII in front of it: a column beyond the units leads behind the
character. -/
theorem ofColumn_bytes_iff {front : List Char} (c : Char) (rest : List Char) :
    ofColumn (Text.bytes front) 0 (front ++ c :: rest) = Text.bytes front ↔
      ∀ d ∈ front, d.toNat < 128 := by
  have hunits := ofColumn_units front (c :: rest) 0
  rw [Nat.zero_add] at hunits
  have hle := Text.units_le_bytes front
  rw [← Text.units_eq_bytes_iff]
  constructor
  · intro hplace
    have hnone := (ofColumn_eq_iff hle).mp (hunits.trans hplace.symm)
    by_contra hne
    exact hnone ⟨front, c, rest, rfl, Nat.le_refl _, Nat.lt_of_le_of_ne hle hne⟩
  · intro hsame
    rwa [hsame] at hunits

end Offset

namespace Mock

/-! # First occurrences -/

/-- A word stands in a line behind `front`, and nowhere before. -/
structure IsFirst (word line front back : List Char) : Prop where
  line_eq : line = front ++ word ++ back
  first : ∀ front' back', line = front' ++ word ++ back' →
    front.length ≤ front'.length

def occurrence? (word : List Char) : List Char → Option (List Char × List Char)
  | [] => if word.isEmpty then some ([], []) else none
  | c :: rest =>
    if word.isPrefixOf (c :: rest) then some ([], (c :: rest).drop word.length)
    else (occurrence? word rest).map fun (front, back) => (c :: front, back)

theorem find?_eq_occurrence? (word line : List Char) :
    find? word line = (occurrence? word line).map fun o => Text.bytes o.1 := by
  induction line with
  | nil =>
      rw [find?, occurrence?]
      split <;> rfl
  | cons c rest ih =>
      rw [find?, occurrence?]
      split
      · rfl
      · rw [ih, Option.map_map, Option.map_map]
        congr 1
        funext o
        exact Nat.add_comm _ _

section Occurrence

variable {word line front back : List Char}

theorem isFirst_of_occurrence?
    (h : occurrence? word line = some (front, back)) :
    IsFirst word line front back := by
  induction line generalizing front with
  | nil =>
      rw [occurrence?] at h
      split at h
      · next hempty =>
          cases h
          rw [List.isEmpty_iff.mp hempty]
          exact ⟨rfl, fun _ _ _ => Nat.zero_le _⟩
      · exact nomatch h
  | cons c rest ih =>
      rw [occurrence?] at h
      split at h
      · next hprefix =>
          cases h
          have hdrop :=
            List.prefix_iff_eq_append.mp (List.isPrefixOf_iff_prefix.mp hprefix)
          exact ⟨hdrop.symm, fun _ _ _ => Nat.zero_le _⟩
      · next hprefix =>
          rcases Option.map_eq_some_iff.mp h with ⟨⟨front', back'⟩, hrest, heq⟩
          cases heq
          have hfirst := ih hrest
          refine ⟨by rw [hfirst.line_eq]; rfl, ?_⟩
          intro other behind hother
          cases other with
          | nil =>
              have hat := List.isPrefixOf_iff_prefix.mpr ⟨behind, hother.symm⟩
              exact absurd hat hprefix
          | cons d other =>
              exact Nat.succ_le_succ
                (hfirst.first other behind (List.cons.inj hother).2)

theorem not_infix_of_occurrence? (h : occurrence? word line = none) :
    ¬ word <:+: line := by
  induction line with
  | nil =>
      rw [occurrence?] at h
      split at h
      · exact nomatch h
      · next hempty =>
          intro hinfix
          exact hempty (List.isEmpty_iff.mpr (List.infix_nil.mp hinfix))
  | cons c rest ih =>
      rw [occurrence?] at h
      split at h
      · exact nomatch h
      · next hprefix =>
          rw [List.infix_cons_iff, not_or]
          exact ⟨fun hhead => hprefix (List.isPrefixOf_iff_prefix.mpr hhead),
            ih (Option.map_eq_none_iff.mp h)⟩

theorem IsFirst.infix (h : IsFirst word line front back) : word <:+: line :=
  ⟨front, back, h.line_eq.symm⟩

end Occurrence

/-! # Marks -/

inductive Marker where
  | error
  | warn
deriving DecidableEq, Repr

namespace Marker

def word : Marker → String
  | .error => "ERROR"
  | .warn => "WARN"

def severity : Marker → Nat
  | .error => 1
  | .warn => 2

/-- The word is the one that is reported of a line: an error goes before a
warning. -/
def Marks (line : List Char) : Marker → Prop
  | .error => error.word.toList <:+: line
  | .warn => warn.word.toList <:+: line ∧ ¬ error.word.toList <:+: line

end Marker

/-- A marker word on the line with a number, and what stands there in front of
it and behind it. -/
structure Mark where
  number : Nat
  front : List Char
  marker : Marker
  back : List Char
deriving DecidableEq, Repr

namespace Mark

def word (m : Mark) : List Char :=
  m.marker.word.toList

def line (m : Mark) : List Char :=
  m.front ++ m.word ++ m.back

/-- The range that is reported. Its columns are bytes. -/
def range (m : Mark) : Range :=
  ⟨⟨m.number, Text.bytes m.front⟩,
    ⟨m.number, Text.bytes m.front + m.word.length⟩⟩

def toJson (m : Mark) : Json :=
  diagnostic m.number (Text.bytes m.front) m.marker.severity m.marker.word

/-- The reported range, read as the protocol reads it, encloses the word where
it stands. -/
def IsEnclosed (text : List Char) (m : Mark) : Prop :=
  Offset.ofPosition? text m.range.start =
    some (Text.bytes (Text.above text m.number ++ m.front)) ∧
  Offset.ofPosition? text m.range.stop =
    some (Text.bytes (Text.above text m.number ++ m.front ++ m.word))

end Mark

def mark? (line : List Char) (number : Nat) : Option Mark :=
  match occurrence? Marker.error.word.toList line with
  | some (front, back) => some ⟨number, front, .error, back⟩
  | none => (occurrence? Marker.warn.word.toList line).map fun (front, back) =>
      ⟨number, front, .warn, back⟩

def marks (text : List Char) : List Mark :=
  (Text.lines text).zipIdx.filterMap fun (line, number) => mark? line number

theorem lineDiagnostic?_eq (line : List Char) (number : Nat) :
    lineDiagnostic? line number = (mark? line number).map Mark.toJson := by
  have herror : "ERROR".toList = Marker.error.word.toList := rfl
  have hwarn : "WARN".toList = Marker.warn.word.toList := rfl
  rw [lineDiagnostic?, mark?, herror, hwarn, find?_eq_occurrence?,
    find?_eq_occurrence?]
  cases occurrence? Marker.error.word.toList line with
  | some o =>
      rfl
  | none =>
      cases occurrence? Marker.warn.word.toList line <;> rfl

theorem diagnostics_eq (text : String) :
    diagnostics text = (marks text.toList).map Mark.toJson := by
  rw [diagnostics, marks, List.map_filterMap]
  congr 1
  funext l
  exact lineDiagnostic?_eq l.1 l.2

def HoldsMarker (line : List Char) : Prop :=
  Marker.error.word.toList <:+: line ∨ Marker.warn.word.toList <:+: line

instance (line : List Char) : Decidable (HoldsMarker line) :=
  inferInstanceAs (Decidable (_ ∨ _))

section Line

variable {line : List Char} {number : Nat} {m : Mark}

theorem mark?_eq_none (h : mark? line number = none) : ¬ HoldsMarker line := by
  unfold mark? at h
  split at h
  · exact nomatch h
  · next herror =>
      exact not_or.mpr ⟨not_infix_of_occurrence? herror,
        not_infix_of_occurrence? (Option.map_eq_none_iff.mp h)⟩

theorem number_of_mark? (h : mark? line number = some m) :
    m.number = number := by
  unfold mark? at h
  split at h
  · cases h
    rfl
  · rcases Option.map_eq_some_iff.mp h with ⟨o, -, rfl⟩
    rfl

theorem isFirst_of_mark? (h : mark? line number = some m) :
    IsFirst m.word line m.front m.back ∧ m.marker.Marks line := by
  unfold mark? at h
  split at h
  · next front back herror =>
      cases h
      have hfirst := isFirst_of_occurrence? herror
      exact ⟨hfirst, hfirst.infix⟩
  · next herror =>
      rcases Option.map_eq_some_iff.mp h with ⟨⟨front, back⟩, hwarn, rfl⟩
      have hfirst := isFirst_of_occurrence? hwarn
      exact ⟨hfirst, hfirst.infix, not_infix_of_occurrence? herror⟩

theorem line_of_mark? (h : mark? line number = some m) : m.line = line :=
  (isFirst_of_mark? h).1.line_eq.symm

theorem Marker.Marks.holds {marker : Marker} (h : marker.Marks line) :
    HoldsMarker line := by
  cases marker with
  | error =>
      exact .inl h
  | warn =>
      exact .inr h.1

theorem mark?_place (line : List Char) (number : Nat) :
    (mark? line number).map (fun m => (m.line, m.number)) =
      Option.guard (fun l : List Char × Nat => HoldsMarker l.1)
        (line, number) := by
  cases hmark : mark? line number with
  | none =>
      rw [Option.guard, if_neg (by simpa using mark?_eq_none hmark)]
      rfl
  | some m =>
      rw [Option.guard, if_pos
        (by simpa using (isFirst_of_mark? hmark).2.holds), Option.map_some,
        line_of_mark? hmark, number_of_mark? hmark]

end Line

theorem mem_marks {text : List Char} {m : Mark} (h : m ∈ marks text) :
    (Text.lines text)[m.number]? = some m.line ∧
    mark? m.line m.number = some m := by
  rcases List.mem_filterMap.mp h with ⟨⟨line, number⟩, hline, hmark⟩
  rw [number_of_mark? hmark, line_of_mark? hmark]
  exact ⟨List.mem_zipIdx_iff_getElem?.mp hline, hmark⟩

/-! # Words in their ranges -/

namespace Mark

theorem units_word (m : Mark) : Text.units m.word = m.word.length := by
  cases h : m.marker <;> simp only [word, h] <;> decide

theorem bare_word (m : Mark) : Text.bare m.word = m.word := by
  cases h : m.marker <;> simp only [word, h] <;> decide

theorem exists_word_eq_cons (m : Mark) : ∃ c rest, m.word = c :: rest := by
  cases h : m.marker <;> simp only [word, h] <;> exact ⟨_, _, rfl⟩

theorem exists_bare_line (m : Mark) :
    ∃ tail, Text.bare m.line = m.front ++ m.word ++ tail := by
  rw [line]
  cases hback : m.back with
  | nil =>
      rcases m.exists_word_eq_cons with ⟨c, rest, hword⟩
      have hne : m.word ≠ [] := hword ▸ List.cons_ne_nil c rest
      exact ⟨[], by rw [List.append_nil, Text.bare_append _ hne, bare_word]⟩
  | cons c rest =>
      exact ⟨_, Text.bare_append _ (List.cons_ne_nil c rest)⟩

theorem isEnclosed_iff {text : List Char} {m : Mark}
    (h : (Text.lines text)[m.number]? = some m.line) :
    m.IsEnclosed text ↔ ∀ c ∈ m.front, c.toNat < 128 := by
  rcases Text.line_at h with ⟨-, shown, hshown, hcolumns⟩
  have htail : ∃ tail, shown = m.front ++ m.word ++ tail := by
    rcases hshown with rfl | rfl
    · exact ⟨m.back, rfl⟩
    · exact m.exists_bare_line
  rcases htail with ⟨tail, rfl⟩
  have hstart : Offset.ofPosition? text m.range.start =
      some (Text.bytes (Text.above text m.number ++ m.front)) ↔
      ∀ c ∈ m.front, c.toNat < 128 := by
    rcases m.exists_word_eq_cons with ⟨c, rest, hword⟩
    rw [range, hcolumns, Text.bytes_append, Option.some.injEq,
      Nat.add_left_cancel_iff, hword, List.append_assoc, List.cons_append]
    exact Offset.ofColumn_bytes_iff c (rest ++ tail)
  constructor
  · intro henclosed
    exact hstart.mp henclosed.1
  · intro hascii
    refine ⟨hstart.mpr hascii, ?_⟩
    have hstop := Offset.ofColumn_units (m.front ++ m.word) tail 0
    rw [Nat.zero_add, Text.units_append, Text.units_eq_bytes_iff.mpr hascii,
      units_word] at hstop
    rw [range, hcolumns, hstop, List.append_assoc,
      Text.bytes_append (Text.above text m.number)]

theorem get?_range (m : Mark) :
    m.toJson.get? "range" = some m.range.toJson := by
  rw [toJson, diagnostic, Json.get?_ofMembers]
  rfl

theorem get?_message (m : Mark) :
    m.toJson.get? "message" = some (.str s!"found {m.marker.word}") := by
  rw [toJson, diagnostic, Json.get?_ofMembers]
  rfl

end Mark

/-- The diagnostics of a text are those of its lines that hold a marker word,
one for each, an error going before a warning. Each of them names the word that
it is about and is about its first occurrence on the line, and its range
encloses just that occurrence iff there is only ASCII in front of it. -/
theorem diagnostics_enclose_behind_ascii (text : String) :
    diagnostics text = (marks text.toList).map Mark.toJson ∧
    (marks text.toList).map (fun m => (m.line, m.number)) =
      (Text.lines text.toList).zipIdx.filter (fun l => HoldsMarker l.1) ∧
    ∀ m ∈ marks text.toList,
      m.marker.Marks m.line ∧ IsFirst m.word m.line m.front m.back ∧
      m.toJson.get? "message" = some (.str s!"found {m.marker.word}") ∧
      m.toJson.get? "range" = some m.range.toJson ∧
      (∃ rest, text.toList = Text.above text.toList m.number ++
        m.line ++ rest) ∧
      (m.IsEnclosed text.toList ↔ ∀ c ∈ m.front, c.toNat < 128) := by
  refine ⟨diagnostics_eq text, ?_, ?_⟩
  · rw [marks, List.map_filterMap, ← List.filterMap_eq_filter]
    congr 1
    funext l
    exact mark?_place l.1 l.2
  · intro m hm
    rcases mem_marks hm with ⟨hline, hmark⟩
    rcases isFirst_of_mark? hmark with ⟨hfirst, hmarks⟩
    exact ⟨hmarks, hfirst, m.get?_message, m.get?_range, (Text.line_at hline).1,
      Mark.isEnclosed_iff hline⟩

/-- Behind an accented letter the diagnostic starts one character too late. -/
theorem accent_shifts_diagnostic :
    diagnostics "é ERROR" = [diagnostic 0 3 1 "ERROR"] ∧
    "é ERROR".toList = "é ".toList ++ "ERROR".toList ∧
    Text.bytes "é ".toList = 3 ∧
    Offset.ofPosition? "é ERROR".toList ⟨0, 2⟩ = some 3 ∧
    Offset.ofPosition? "é ERROR".toList ⟨0, 3⟩ = some 4 := by
  decide

end Mock
end CodeIntel
