import CodeIntel.Protocol.Symbol
import CodeIntel.Report.Excerpt

/-!
# Reports on definitions
-/

namespace CodeIntel

structure FoundDefinition where
  symbol : String
  kind : SymbolKind
  container : Option String
  path : FilePath
  range : Range
  text : String
deriving DecidableEq, Repr

namespace Report

def definition (d : FoundDefinition) : String :=
  "---\n\n" ++ line s!"Symbol: {d.symbol}" ++ line s!"File: {d.path.text}" ++
    line s!"Kind: {d.kind.name}" ++
    unlessEmpty (fun c => line s!"Container Name: {c}") d.container ++
    line s!"Range: {rangeText d.range}\n" ++ line d.text

def definitions (symbol : String) : Option (List FoundDefinition) → String
  | none => s!"{symbol} not found"
  | some found => String.join (found.map definition)

end Report
end CodeIntel
