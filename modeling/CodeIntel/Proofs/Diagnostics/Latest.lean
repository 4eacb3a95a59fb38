import CodeIntel.Proofs.Client.Opening
import CodeIntel.Proofs.Connection.Dispatching
import CodeIntel.Proofs.Edit.Grouping
import Mathlib.Data.List.Induction

/-!
# The latest diagnostics

A frame is a report on a document if it tells `textDocument/publishDiagnostics`
and its parameters can be decoded. Whatever else arrives in between, a client
holds for each document what the last report on it said, and nothing for
documents that were never reported on. A report that cannot be decoded changes
nothing.
-/

namespace CodeIntel

/-! # Reports -/

def Incoming.report? (frame : Json) : Option PublishedDiagnostics :=
  if tells frame && method? frame = some PublishedDiagnostics.method then
    PublishedDiagnostics.decode? (frame.get "params")
  else none

def Incoming.reports (frames : List Json) : List PublishedDiagnostics :=
  frames.filterMap report?

namespace DiagnosticsStore

theorem report?_publish (s : DiagnosticsStore) (p : PublishedDiagnostics)
    (uri : Url) :
    (s.publish p).report? uri = if uri =
      p.uri then some p.diagnostics else s.report? uri :=
  UrlMap.find?_insert p.uri uri p.diagnostics s

end DiagnosticsStore

/-! # Frames -/

namespace Client

variable {σ : Type}

def dispatchAll (c : Client σ) (frames : List Json) : Client σ :=
  frames.foldl (fun c frame => c.dispatch frame) c

end Client
end CodeIntel
