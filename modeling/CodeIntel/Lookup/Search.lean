import CodeIntel.Client.Queries
import CodeIntel.Lookup.Candidate
import CodeIntel.Lookup.Enclosing
import CodeIntel.Report.Definitions

/-!
# Looking symbols up by name

A name is searched in the whole workspace, and each symbol that matches it is
asked about at its place. A candidate that cannot be asked about is left out;
only the search itself can fail the lookup.
-/

namespace CodeIntel
namespace Lookup

variable {σ : Type}

/-- A step whose fault leaves it without a result. -/
def attempt (step : ClientM σ α) : ClientM σ (Option α) :=
  tryCatch (step.map some) fun _ => pure none

def matching (query : String) (response : Option WorkspaceSymbols) :
    List Candidate :=
  (Candidate.ofResponse response).filter (·.isMatch query)

def candidates (query : String) : ClientM σ (List Candidate) := do
  let response ← Client.workspaceSymbols query
  pure (matching query response)

/-- What is found at the places of candidates, each with the candidate it was
found for. -/
def locate (ask : FilePath → Position → ClientM σ (List Location)) :
    List Candidate → ClientM σ (List (Candidate × Location))
  | [] => pure []
  | c :: rest => do
    let found ← attempt (ask c.location.uri.toPath c.location.range.start)
    let more ← locate ask rest
    pure ((found.getD []).map (c, ·) ++ more)

/-! # References -/

def references (query : String) : ClientM σ (List Location) := do
  let found ← locate (fun path p => Client.references path p false)
    (← candidates query)
  pure (distinct id (found.map Prod.snd))

/-! # Definitions -/

/-- The range of the symbol around a location, or its own range if no symbol is
known there. -/
def enclosingRange (path : FilePath) (l : Location) : ClientM σ Range := do
  if (← getThe (Client σ)).capabilities.supports .documentSymbol then
    let symbols ← attempt (Client.documentSymbols path)
    pure (((symbols.map (enclosing l.range.start)).join).getD l.range)
  else pure l.range

def sourceText (path : FilePath) : ClientM σ String := do
  match (← getThe (Client σ)).text path with
  | .ok text => pure text
  | .error e =>
    throw (.documentNotFound s!"failed to read '{path.text}': {e.message}")

def describe (c : Candidate) (l : Location) : ClientM σ FoundDefinition := do
  let path := l.uri.toPath
  let _ ← Client.openFile path
  let range ← enclosingRange path l
  let content ← sourceText path
  let lines := Excerpt.span content range.start.line range.stop.line
  let text := Excerpt.numbered lines (Position.ordinal range.start.line)
  pure ⟨c.name, c.kind, c.container, path, range, text⟩

def describeAll : List (Candidate × Location) → ClientM σ (List FoundDefinition)
  | [] => pure []
  | (c, l) :: rest => do
    let found ← attempt (describe c l)
    let more ← describeAll rest
    pure (found.toList ++ more)

/-- The definitions of all symbols that match, each once. Finding none is no
fault. -/
def definitions (query : String) :
    ClientM σ (Option (List FoundDefinition)) := do
  let located ← locate Client.definition (← candidates query)
  let found ← describeAll (distinct Prod.snd located)
  pure (if found.isEmpty then none else some found)

end Lookup
end CodeIntel
