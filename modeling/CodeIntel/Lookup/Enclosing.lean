import CodeIntel.Protocol.Symbol

/-!
# The symbol around a place
-/

namespace CodeIntel
namespace Lookup

/-- The lines and the columns that a range spans, nothing where its end comes
first. -/
def extent (r : Range) : Nat × Nat :=
  (r.stop.line - r.start.line, r.stop.character - r.start.character)

def smaller (a b : Range) : Bool :=
  (extent a).1 < (extent b).1 ||
    ((extent a).1 = (extent b).1 && (extent a).2 < (extent b).2)

/-- The first of the smallest ranges. -/
def smallest? : List Range → Option Range
  | [] => none
  | r :: rest =>
    match smallest? rest with
    | none => some r
    | some s => if smaller s r then some s else some r

mutual

/-- The range of a symbol around `p`, or of the innermost one inside it. -/
def innermostIn (p : Position) : DocumentSymbol → Range
  | ⟨_, _, _, _, _, range, _, children⟩ => (innermostOf p children).getD range

def innermostOf (p : Position) : Option (List DocumentSymbol) → Option Range
  | none => none
  | some symbols => innermost p symbols

def innermost (p : Position) : List DocumentSymbol → Option Range
  | [] => none
  | s :: rest =>
    if s.range.contains p then some (innermostIn p s) else innermost p rest

end

def enclosing (p : Position) : Option DocumentSymbols → Option Range
  | none => none
  | some (.nested symbols) => innermost p symbols
  | some (.flat symbols) =>
    smallest? ((symbols.map fun s => s.location.range).filter (·.contains p))

end Lookup
end CodeIntel
