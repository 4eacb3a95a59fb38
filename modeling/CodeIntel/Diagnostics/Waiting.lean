import CodeIntel.Diagnostics.Store

/-!
# Waiting for diagnostics

Tasks that wait for the first report on a document, under a clock.
-/

namespace CodeIntel

structure DiagnosticsWait where
  tag : String
  uri : Url
  /-- The time at which the task gives up, in milliseconds. -/
  deadline : Nat
deriving DecidableEq, Repr

structure DiagnosticsWatch where
  store : DiagnosticsStore := []
  clock : Nat := 0
  waiting : List DiagnosticsWait := []
  /-- The tasks that have ended, with the report that they waited for. -/
  ended : List (String × Option (List Diagnostic)) := []

namespace DiagnosticsWatch

def settleTask (w : DiagnosticsWatch) (t : DiagnosticsWait) :
    DiagnosticsWatch :=
  match w.store.report? t.uri with
  | some found => { w with ended := w.ended ++ [(t.tag, some found)] }
  | none =>
    if t.deadline ≤ w.clock then { w with ended := w.ended ++ [(t.tag, none)] }
    else { w with waiting := w.waiting ++ [t] }

def settle (w : DiagnosticsWatch) : DiagnosticsWatch :=
  w.waiting.foldl settleTask { w with waiting := [] }

def publish (w : DiagnosticsWatch) (p : PublishedDiagnostics) :
    DiagnosticsWatch :=
  { w with store := w.store.publish p }

def wait (w : DiagnosticsWatch) (tag : String) (uri : Url) (ms : Nat) :
    DiagnosticsWatch :=
  { w with waiting := w.waiting ++ [⟨tag, uri, w.clock + ms⟩] }

def advance (w : DiagnosticsWatch) (ms : Nat) : DiagnosticsWatch :=
  { w with clock := w.clock + ms }

end DiagnosticsWatch
end CodeIntel
