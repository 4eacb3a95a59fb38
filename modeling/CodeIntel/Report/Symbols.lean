import CodeIntel.Protocol.CallHierarchy
import CodeIntel.Report.Place

/-!
# Reports on symbols and calls
-/

namespace CodeIntel
namespace Report

/-! # The symbols of a document -/

def indent : Nat → String
  | 0 => ""
  | depth + 1 => String.join (List.replicate depth "│   ") ++ "├── "

mutual

/-- A symbol and, one step deeper, the symbols inside it. -/
def outlineSymbol (depth : Nat) : DocumentSymbol → String
  | ⟨name, detail, kind, _, _, range, _, children⟩ =>
    line (s!"{indent depth}{kind.name} {name}" ++
      unlessEmpty (fun d => s!" ({d})") detail ++ s!" [{rangeText range}]") ++
      outlineChildren (depth + 1) children

def outlineChildren (depth : Nat) : Option (List DocumentSymbol) → String
  | none => ""
  | some symbols => outline depth symbols

def outline (depth : Nat) : List DocumentSymbol → String
  | [] => ""
  | s :: rest => outlineSymbol depth s ++ outline depth rest

end

def flatSymbol (s : SymbolInformation) : String :=
  line (s!"• {s.kind.name} {s.name}" ++
    unlessEmpty (fun c => s!" (in {c})") s.containerName ++
    s!" [{rangeText s.location.range}]")

def symbolLines : Option DocumentSymbols → String
  | none => ""
  | some (.flat symbols) => String.join (symbols.map flatSymbol)
  | some (.nested symbols) => outline 0 symbols

/-- The outline of a document; a flat answer is listed as it is. -/
def documentSymbols (path : FilePath) (response : Option DocumentSymbols) :
    String :=
  let body := symbolLines response
  if body.isEmpty then "No symbols found"
  else line s!"Document Symbols for {path.text}:\n" ++ body

/-! # Calls -/

def callItem (c : CallItem) : String :=
  c.name ++ unlessEmpty (fun d => s!" ({d})") c.detail ++
    s!" at {fileText c.uri}:{Position.ordinal c.selectionRange.start.line}"

def noCalls : CallDirection → String
  | .incoming => "No incoming calls found\n"
  | .outgoing => "No outgoing calls found\n"

def callsHeading : CallDirection → String
  | .incoming => "Incoming calls to"
  | .outgoing => "Outgoing calls from"

def sitesLabel : CallDirection → String
  | .incoming => "Call sites"
  | .outgoing => "Called at"

def call (direction : CallDirection) (n : Nat) (c : Call) : String :=
  line s!"{n}. {callItem c.item}" ++
    if c.sites.isEmpty then ""
    else line s!"   {sitesLabel direction}: {startsText c.sites}"

def calls (direction : CallDirection) (item : CallItem) (found : List Call) :
    String :=
  if found.isEmpty then noCalls direction
  else line s!"{callsHeading direction}: {callItem item}\n" ++
    numbered (call direction) found

end Report
end CodeIntel
