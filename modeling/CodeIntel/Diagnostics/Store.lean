import CodeIntel.Protocol.Command
import CodeIntel.Url.Map

/-!
# Published diagnostics

The last report on each document. A report replaces the one before it; an empty
report says that the document is clean, which is not the same as no report.
-/

namespace CodeIntel

structure PublishedDiagnostics where
  uri : Url
  diagnostics : List Diagnostic
deriving DecidableEq, Repr

namespace PublishedDiagnostics

def method : String := "textDocument/publishDiagnostics"

def decode? (v : Json) : Option PublishedDiagnostics := do
  let v ← v.record? ["uri", "diagnostics", "version"]
  let uri ← v.field? Url.decode? "uri"
  let diagnostics ← v.field? (Json.list? Diagnostic.decode?) "diagnostics"
  let _ ← v.optional? Json.i32? "version"
  some ⟨uri, diagnostics⟩

end PublishedDiagnostics

abbrev DiagnosticsStore := UrlMap (List Diagnostic)

namespace DiagnosticsStore

def publish (s : DiagnosticsStore) (p : PublishedDiagnostics) :
    DiagnosticsStore :=
  UrlMap.insert p.uri p.diagnostics s

/-- Takes note of a notification: reports are stored, whatever cannot be decoded
is dropped. -/
def receive (s : DiagnosticsStore) (method : String) (params : Json) :
    DiagnosticsStore :=
  if method = PublishedDiagnostics.method then
    match PublishedDiagnostics.decode? params with
    | some p => s.publish p
    | none => s
  else s

def report? (s : DiagnosticsStore) (uri : Url) : Option (List Diagnostic) :=
  UrlMap.find? uri s

def get (s : DiagnosticsStore) (uri : Url) : List Diagnostic :=
  (s.report? uri).getD []

def hasReport (s : DiagnosticsStore) (uri : Url) : Bool :=
  (s.report? uri).isSome

end DiagnosticsStore
end CodeIntel
