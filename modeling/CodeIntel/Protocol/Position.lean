import CodeIntel.Json.Fields
import CodeIntel.Url.Parser

/-!
# Positions and places

Lines and columns of the protocol count from zero, columns in 16-bit units. A
location is a range in the document that a URL names.
-/

namespace CodeIntel

@[ext]
structure Position where
  line : Nat
  character : Nat
deriving DecidableEq, Repr, Inhabited

namespace Position

/-- The number of a line or column counted from one. Numbers have 32 bits, and
none of them follows the last. -/
def ordinal (n : Nat) : Nat :=
  (n + 1) % 4294967296

theorem ordinal_of_lt {n : Nat} (h : n < 4294967295) : ordinal n = n + 1 :=
  Nat.mod_eq_of_lt (Nat.succ_lt_succ h)

def before (p q : Position) : Bool :=
  p.line < q.line || (p.line = q.line && p.character < q.character)

def atMost (p q : Position) : Bool :=
  !q.before p

theorem before_iff {p q : Position} : p.before q = true ↔
    p.line < q.line ∨ p.line = q.line ∧ p.character < q.character := by
  simp [before]

theorem atMost_iff {p q : Position} : p.atMost q = true ↔
    p.line < q.line ∨ p.line = q.line ∧ p.character ≤ q.character := by
  simp only [atMost, before, Bool.not_eq_true', Bool.or_eq_false_iff,
    Bool.and_eq_false_iff, decide_eq_false_iff_not]
  omega

theorem atMost_refl (p : Position) : p.atMost p = true :=
  atMost_iff.mpr (.inr ⟨rfl, Nat.le_refl _⟩)

theorem atMost_trans {p q r : Position} (hpq : p.atMost q = true)
    (hqr : q.atMost r = true) :
    p.atMost r = true := by
  rw [atMost_iff] at hpq hqr ⊢
  omega

def decode? (v : Json) : Option Position := do
  let v ← v.record? ["line", "character"]
  let line ← v.field? Json.u32? "line"
  let character ← v.field? Json.u32? "character"
  some ⟨line, character⟩

def toJson (p : Position) : Json :=
  Json.ofMembers [("line", .ofNat p.line), ("character", .ofNat p.character)]

end Position

@[ext]
structure Range where
  start : Position
  stop : Position
deriving DecidableEq, Repr, Inhabited

namespace Range

def contains (r : Range) (p : Position) : Bool :=
  r.start.atMost p && p.atMost r.stop

theorem contains_iff {r : Range} {p : Position} :
    r.contains p = true ↔ r.start.atMost p = true ∧ p.atMost r.stop = true :=
  Bool.and_eq_true_iff

def decode? (v : Json) : Option Range := do
  let v ← v.record? ["start", "end"]
  let start ← v.field? Position.decode? "start"
  let stop ← v.field? Position.decode? "end"
  some ⟨start, stop⟩

def toJson (r : Range) : Json :=
  Json.ofMembers [("start", r.start.toJson), ("end", r.stop.toJson)]

end Range

namespace Url

def decode? (v : Json) : Option Url :=
  v.str?.bind parse?

def toJson (u : Url) : Json :=
  .str u.text

end Url

structure Location where
  uri : Url
  range : Range
deriving DecidableEq, Repr, Inhabited

namespace Location

def decode? (v : Json) : Option Location := do
  let v ← v.record? ["uri", "range"]
  let uri ← v.field? Url.decode? "uri"
  let range ← v.field? Range.decode? "range"
  some ⟨uri, range⟩

def toJson (l : Location) : Json :=
  Json.ofMembers [("uri", l.uri.toJson), ("range", l.range.toJson)]

end Location

structure LocationLink where
  origin : Option Range
  targetUri : Url
  targetRange : Range
  targetSelection : Range
deriving DecidableEq, Repr

namespace LocationLink

def decode? (v : Json) : Option LocationLink := do
  let v ← v.record? ["originSelectionRange", "targetUri", "targetRange",
      "targetSelectionRange"]
  let origin ← v.optional? Range.decode? "originSelectionRange"
  let targetUri ← v.field? Url.decode? "targetUri"
  let targetRange ← v.field? Range.decode? "targetRange"
  let targetSelection ← v.field? Range.decode? "targetSelectionRange"
  some ⟨origin, targetUri, targetRange, targetSelection⟩

def toJson (l : LocationLink) : Json :=
  Json.ofOptions [("originSelectionRange", l.origin.map Range.toJson),
    ("targetUri", some l.targetUri.toJson),
    ("targetRange", some l.targetRange.toJson),
    ("targetSelectionRange", some l.targetSelection.toJson)]

end LocationLink

inductive Definition where
  | one (location : Location)
  | many (locations : List Location)
  | links (links : List LocationLink)
deriving DecidableEq, Repr

namespace Definition

def decode? (v : Json) : Option Definition :=
  ((Location.decode? v).map .one).or <|
    ((Json.list? Location.decode? v).map .many).or <|
      (Json.list? LocationLink.decode? v).map .links

def toJson : Definition → Json
  | .one l => l.toJson
  | .many ls => .ofList Location.toJson ls
  | .links ls => .ofList LocationLink.toJson ls

/-- The locations of an answer; a link leads to its target's full range. -/
def locations : Option Definition → List Location
  | none => []
  | some (.one l) => [l]
  | some (.many ls) => ls
  | some (.links ls) => ls.map fun l => ⟨l.targetUri, l.targetRange⟩

end Definition
end CodeIntel
