import CodeIntel.Lookup.Match

/-!
# Candidates of a lookup
-/

namespace CodeIntel

structure Candidate where
  name : String
  kind : SymbolKind
  container : Option String
  location : Location
deriving DecidableEq, Repr

namespace Candidate

def ofInformation (s : SymbolInformation) : Candidate :=
  ⟨s.name, s.kind, s.containerName, s.location⟩

/-- A symbol that only names its document has no place to ask about. -/
def ofSymbol? (s : WorkspaceSymbol) : Option Candidate :=
  match s.location with
  | .range location => some ⟨s.name, s.kind, s.containerName, location⟩
  | .document _ => none

def ofResponse : Option WorkspaceSymbols → List Candidate
  | none => []
  | some (.flat symbols) => symbols.map ofInformation
  | some (.nested symbols) => symbols.filterMap ofSymbol?

def isMatch (query : String) (c : Candidate) : Bool :=
  Lookup.isMatch query c.name c.kind c.container

end Candidate

namespace Lookup

/-- The document and the start of a location; two locations that agree in them
count as one. -/
def startKey (l : Location) : Url × Position :=
  (l.uri, l.range.start)

/-- The items whose location starts at a place not in `seen` and not at that of
an earlier item. -/
def distinctFrom (location : α → Location) (seen : List (Url × Position)) :
    List α → List α
  | [] => []
  | a :: rest =>
    let key := startKey (location a)
    if seen.contains key then distinctFrom location seen rest
    else a :: distinctFrom location (key :: seen) rest

def distinct (location : α → Location) (items : List α) : List α :=
  distinctFrom location [] items

end Lookup
end CodeIntel
