import CodeIntel.Edit.Lines
import CodeIntel.Json.Fields
import CodeIntel.Protocol.CallHierarchy
import CodeIntel.Report.Place

/-!
# Tool calls

The tools by their names, and the arguments that each of them takes. Lines and
columns count from one here.
-/

namespace CodeIntel

inductive ToolName where
  | definition
  | references
  | diagnostics
  | hover
  | documentSymbols
  | callHierarchy
  | signatureHelp
  | codeActions
  | completions
  | editFile
  | renameSymbol
  | getCodeLens
  | executeCodeLens
deriving DecidableEq, Repr

namespace ToolName

def all : List ToolName :=
  [.definition, .references, .diagnostics, .hover, .documentSymbols,
    .callHierarchy, .signatureHelp,
    .codeActions, .completions, .editFile, .renameSymbol, .getCodeLens,
    .executeCodeLens]

def text : ToolName → String
  | .definition => "definition"
  | .references => "references"
  | .diagnostics => "diagnostics"
  | .hover => "hover"
  | .documentSymbols => "document_symbols"
  | .callHierarchy => "call_hierarchy"
  | .signatureHelp => "signature_help"
  | .codeActions => "code_actions"
  | .completions => "completions"
  | .editFile => "edit_file"
  | .renameSymbol => "rename_symbol"
  | .getCodeLens => "get_codelens"
  | .executeCodeLens => "execute_codelens"

def ofText? (s : String) : Option ToolName :=
  all.find? fun t => t.text = s

end ToolName

structure FilePlace where
  file : String
  place : EditorPosition
deriving DecidableEq, Repr

inductive ToolCall where
  | definition (symbol : String)
  | references (symbol : String)
  | diagnostics (file : String) (context : Nat) (numbers : Bool)
  | hover (at_ : FilePlace)
  | documentSymbols (file : String)
  | callHierarchy (at_ : FilePlace) (direction : CallDirection)
  | signatureHelp (at_ : FilePlace)
  | codeActions (file : String) (range : EditorRange)
  | completions (at_ : FilePlace) (limit : Option Nat)
  | editFile (file : String) (edits : List LineEdit)
  | renameSymbol (at_ : FilePlace) (newName : String)
  | getCodeLens (file : String)
  | executeCodeLens (file : String) (index : Nat)
deriving DecidableEq, Repr

namespace LineEdit

/-- A new text that is missing deletes the lines. -/
def decode? (v : Json) : Option LineEdit := do
  let v ← v.recordWith? ["startLine", "endLine"] ["newText"]
  let startLine ← v.field? Json.u32? "startLine"
  let endLine ← v.field? Json.u32? "endLine"
  let newText ← match v.get? "newText" with
    | none => some ""
    | some text => text.str?
  some ⟨startLine, endLine, newText⟩

def toJson (e : LineEdit) : Json :=
  Json.ofMembers [("startLine", .ofNat e.startLine),
    ("endLine", .ofNat e.endLine), ("newText", .str e.newText)]

end LineEdit

namespace FilePlace

def decode? (v : Json) : Option FilePlace := do
  let file ← v.field? Json.str? "filePath"
  let line ← v.field? Json.u32? "line"
  let column ← v.field? Json.u32? "column"
  some ⟨file, line, column⟩

def members (p : FilePlace) : List (String × Json) :=
  [("filePath", .str p.file), ("line", .ofNat p.place.line),
    ("column", .ofNat p.place.column)]

end FilePlace

namespace ToolCall

/-- The lines shown around a diagnostic unless another number is asked for. -/
def defaultContext : Nat := 5

/-- A member that has a value of its own when it is missing; null is no
value. -/
def orDefault? (decode : Json → Option α) (name : String) (default : α)
    (v : Json) : Option α :=
  match v.get? name with
  | none => some default
  | some member => decode member

def decodeFile? (v : Json) : Option String :=
  v.field? Json.str? "filePath"

def decodeDirection? (v : Json) : Option CallDirection :=
  v.choice?.bind CallDirection.ofName?

def decodeRange? (v : Json) : Option EditorRange := do
  let startLine ← v.field? Json.u32? "startLine"
  let startColumn ← v.field? Json.u32? "startColumn"
  let endLine ← v.field? Json.u32? "endLine"
  let endColumn ← v.field? Json.u32? "endColumn"
  some ⟨⟨startLine, startColumn⟩, ⟨endLine, endColumn⟩⟩

/-- The parameters of a tool in their order, those that may be missing apart. -/
def parameters : ToolName → List String × List String
  | .definition | .references => (["symbolName"], [])
  | .diagnostics => (["filePath"], ["contextLines", "showLineNumbers"])
  | .hover | .signatureHelp => (["filePath", "line", "column"], [])
  | .documentSymbols | .getCodeLens => (["filePath"], [])
  | .callHierarchy => (["filePath", "line", "column", "direction"], [])
  | .codeActions =>
    (["filePath", "startLine", "startColumn", "endLine", "endColumn"], [])
  | .completions => (["filePath", "line", "column", "limit"], [])
  | .editFile => (["filePath", "edits"], [])
  | .renameSymbol => (["filePath", "line", "column", "newName"], [])
  | .executeCodeLens => (["filePath", "index"], [])

def decodeMembers? (v : Json) : ToolName → Option ToolCall
  | .definition => do some (.definition (← v.field? Json.str? "symbolName"))
  | .references => do some (.references (← v.field? Json.str? "symbolName"))
  | .diagnostics => do
    let file ← decodeFile? v
    let context ← orDefault? Json.u64? "contextLines" defaultContext v
    let numbers ← orDefault? Json.bool? "showLineNumbers" true v
    some (.diagnostics file context numbers)
  | .hover => do some (.hover (← FilePlace.decode? v))
  | .documentSymbols => do some (.documentSymbols (← decodeFile? v))
  | .callHierarchy => do
    let at_ ← FilePlace.decode? v
    let direction ← v.field? decodeDirection? "direction"
    some (.callHierarchy at_ direction)
  | .signatureHelp => do some (.signatureHelp (← FilePlace.decode? v))
  | .codeActions => do some (.codeActions (← decodeFile? v) (← decodeRange? v))
  | .completions => do
    let at_ ← FilePlace.decode? v
    let limit ← v.optional? Json.u64? "limit"
    some (.completions at_ limit)
  | .editFile => do
    let file ← decodeFile? v
    let edits ← v.field? (Json.list? LineEdit.decode?) "edits"
    some (.editFile file edits)
  | .renameSymbol => do
    let at_ ← FilePlace.decode? v
    let newName ← v.field? Json.str? "newName"
    some (.renameSymbol at_ newName)
  | .getCodeLens => do some (.getCodeLens (← decodeFile? v))
  | .executeCodeLens => do
    let file ← decodeFile? v
    let index ← v.field? Json.u64? "index"
    some (.executeCodeLens file index)

/-- The call of a tool with the given arguments. Members that the tool does not
know are ignored. -/
def decode? (v : Json) (tool : ToolName) : Option ToolCall := do
  let v ← v.recordWith? (parameters tool).1 (parameters tool).2
  decodeMembers? v tool

def members : ToolCall → List (String × Json)
  | .definition symbol | .references symbol => [("symbolName", .str symbol)]
  | .diagnostics file context numbers =>
    [("filePath", .str file), ("contextLines", .ofNat context),
      ("showLineNumbers", .bool numbers)]
  | .hover at_ | .signatureHelp at_ => at_.members
  | .documentSymbols file | .getCodeLens file => [("filePath", .str file)]
  | .callHierarchy at_ direction =>
    ("direction", .str direction.name) :: at_.members
  | .codeActions file range =>
    [("filePath", .str file), ("startLine", .ofNat range.start.line),
      ("startColumn", .ofNat range.start.column),
      ("endLine", .ofNat range.stop.line),
      ("endColumn", .ofNat range.stop.column)]
  | .completions at_ limit => ("limit", .ofOption .ofNat limit) :: at_.members
  | .editFile file edits =>
    [("filePath", .str file), ("edits", .ofList LineEdit.toJson edits)]
  | .renameSymbol at_ newName => ("newName", .str newName) :: at_.members
  | .executeCodeLens file index =>
    [("filePath", .str file), ("index", .ofNat index)]

/-- The arguments of a call, those with values of their own filled in. -/
def toJson (c : ToolCall) : Json :=
  Json.ofMembers c.members

end ToolCall
end CodeIntel
