import CodeIntel.Protocol.Command
import CodeIntel.Report.Excerpt
import CodeIntel.Sorting

/-!
# Reports on diagnostics
-/

namespace CodeIntel
namespace Report

def severityLabel : Option Int → String
  | some 1 => "ERROR"
  | some 2 => "WARNING"
  | some 3 => "INFO"
  | some 4 => "HINT"
  | _ => "UNKNOWN"

def codeText : DiagnosticCode → String
  | .number n => s!" ({n})"
  | .text s => s!" ({s})"

def sourceText (source : String) : String :=
  s!" [{source}]"

def diagnostic (content : String) (context : Nat) (numbers : Bool) (n : Nat)
    (d : Diagnostic) :
    String :=
  s!"{n}. {severityLabel d.severity} at {rangeText d.range}" ++
    (d.source.map sourceText).getD "" ++ (d.code.map codeText).getD "" ++
    line s!": {d.message}" ++
    line (Excerpt.around content (Position.ordinal d.range.start.line)
      context numbers)

def diagnostics (path : FilePath) (content : String) (found : List Diagnostic)
    (context : Nat) (numbers : Bool) : String :=
  if found.isEmpty then s!"No diagnostics found for {path.text}"
  else
    let sorted :=
      Sorting.sortBy (fun a b => a.range.start.atMost b.range.start) found
    line s!"Diagnostics for {path.text} ({found.length}):\n" ++
      numbered (diagnostic content context numbers) sorted

end Report
end CodeIntel
