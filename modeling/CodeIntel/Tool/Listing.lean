import CodeIntel.Tool.Call

/-!
# The list of tools

What an agent is told about each tool: what it is for, and the schema of its
arguments. A schema is data, the arguments in the order in which they are listed
as required.
-/

namespace CodeIntel

/-! # Arguments -/

inductive ArgumentShape where
  | text
  /-- A line or a column: a number of 32 bits. -/
  | place
  /-- A count: a number of 64 bits. -/
  | count
  | flag
  | direction
  | edits
deriving DecidableEq, Repr

inductive Presentness where
  | required
  | nullable
  /-- It has a value of its own when it is not given. -/
  | default (value : Json)
deriving DecidableEq, Repr

structure ToolArgument where
  name : String
  description : String
  shape : ArgumentShape
  presentness : Presentness := .required
deriving DecidableEq, Repr

namespace ArgumentShape

def natural (format : String) : List (String × Json) :=
  [("type", .str "integer"), ("format", .str format), ("minimum", .ofNat 0)]

def reference (name : String) : List (String × Json) :=
  [("$ref", .str ("#/$defs/" ++ name))]

def members : ArgumentShape → List (String × Json)
  | .text => [("type", .str "string")]
  | .place => natural "uint32"
  | .count => natural "uint"
  | .flag => [("type", .str "boolean")]
  | .direction => reference "CallDirection"
  | .edits =>
    [("type", .str "array"), ("items", Json.ofMembers (reference "LineEdit"))]

end ArgumentShape

namespace Presentness

def members : Presentness → List (String × Json)
  | .required => []
  | .nullable => [("nullable", .bool true)]
  | .default value => [("default", value)]

end Presentness

namespace ToolArgument

def schema (a : ToolArgument) : Json :=
  Json.ofMembers (("description", .str a.description) :: a.shape.members ++
    a.presentness.members)

def objectMembers (arguments : List ToolArgument) : List (String × Json) :=
  let required := arguments.filter fun a => a.presentness = .required
  [("type", .str "object"),
    ("properties", Json.ofMembers (arguments.map fun a => (a.name, a.schema))),
    ("required", .arr (required.map fun a => .str a.name))]

end ToolArgument

/-! # Definitions -/

def constantSchema (name description : String) : Json :=
  Json.ofMembers [("const", .str name), ("description", .str description),
    ("type", .str "string")]

def directionDefinition : String × Json :=
  ("CallDirection", Json.ofMembers [
    ("description", .str "Which side of the call graph to walk."),
    ("oneOf", .arr [
      constantSchema CallDirection.incoming.name
      "Functions that call the target.",
      constantSchema CallDirection.outgoing.name
        "Functions the target calls."])])

def editDefinition : String × Json :=
  ("LineEdit", Json.ofMembers
    (("description", .str "A replacement of whole lines.") ::
    ToolArgument.objectMembers [
      ⟨"startLine", "First line to replace (1-indexed, inclusive)", .place,
        .required⟩,
      ⟨"endLine", "Last line to replace (1-indexed, inclusive)", .place,
        .required⟩,
      ⟨"newText", "Replacement text; empty to delete the lines", .text,
        .default (.str "")⟩]))

/-! # Inputs -/

structure ToolInput where
  title : String
  description : String
  arguments : List ToolArgument
  definitions : List (String × Json) := []
deriving DecidableEq, Repr

namespace ToolInput

def dialect : String :=
  "https:" ++ "//json-schema.org/draft/2020-12/schema"

def schema (i : ToolInput) : Json :=
  let definitions :=
    if i.definitions.isEmpty then []
    else [("$defs", Json.ofMembers i.definitions)]
  Json.ofMembers (("$schema", .str dialect) :: ("title", .str i.title) ::
    ("description", .str i.description) ::
      ToolArgument.objectMembers i.arguments ++ definitions)

def symbol : ToolInput where
  title := "SymbolNameParams"
  description := "Input for tools that look a symbol up by name."
  arguments := [⟨"symbolName",
    "Name of the symbol, e.g. 'main', 'Point', 'Point.x', 'Type::method' or " ++
      "'pkg.Func'",
    .text, .required⟩]

def position : ToolInput where
  title := "PositionParams"
  description := "Common input for position-based tool calls."
  arguments := [
    ⟨"filePath",
      "Path to the source file, absolute or relative to the workspace", .text,
      .required⟩,
    ⟨"line", "Line number (1-indexed)", .place, .required⟩,
    ⟨"column", "Column number (1-indexed)", .place, .required⟩]

def diagnostics : ToolInput where
  title := "DiagnosticsParams"
  description := "Input for the `diagnostics` tool."
  arguments := [
    ⟨"filePath", "Path to the file to report diagnostics for", .text,
      .required⟩,
    ⟨"contextLines",
      "Lines of source context shown around each diagnostic (default 5)",
      .count, .default (.ofNat ToolCall.defaultContext)⟩,
    ⟨"showLineNumbers",
      "Prefix source lines with their line numbers (default true)", .flag,
      .default (.bool true)⟩]

def documentSymbols : ToolInput where
  title := "DocumentSymbolsParams"
  description := "Input for the `document_symbols` tool."
  arguments := [⟨"filePath", "Path to the file to outline", .text, .required⟩]

def callHierarchy : ToolInput where
  title := "CallHierarchyParams"
  description := "Input for the `call_hierarchy` tool."
  arguments := [
    ⟨"filePath", "Path to the file containing the function", .text, .required⟩,
    ⟨"line", "Line number of the function name (1-indexed)", .place, .required⟩,
    ⟨"column", "Column number of the function name (1-indexed)", .place,
      .required⟩,
    ⟨"direction", "'incoming' for callers, 'outgoing' for callees", .direction,
      .required⟩]
  definitions := [directionDefinition]

def codeActions : ToolInput where
  title := "CodeActionsParams"
  description := "Input for the `code_actions` tool: a 1-indexed range."
  arguments := [
    ⟨"filePath", "Path to the file", .text, .required⟩,
    ⟨"startLine", "Start line of the range (1-indexed)", .place, .required⟩,
    ⟨"startColumn", "Start column of the range (1-indexed)", .place, .required⟩,
    ⟨"endLine", "End line of the range (1-indexed)", .place, .required⟩,
    ⟨"endColumn", "End column of the range (1-indexed)", .place, .required⟩]

def completions : ToolInput where
  title := "CompletionsParams"
  description := "Input for the `completions` tool."
  arguments := [
    ⟨"filePath", "Path to the file", .text, .required⟩,
    ⟨"line", "Line number (1-indexed)", .place, .required⟩,
    ⟨"column", "Column number (1-indexed)", .place, .required⟩,
    ⟨"limit", "Maximum number of completions to return (default 20)", .count,
      .nullable⟩]

def editFile : ToolInput where
  title := "EditFileParams"
  description := "Input for the `edit_file` tool."
  arguments := [
    ⟨"filePath", "Path to the file to edit", .text, .required⟩,
    ⟨"edits", "Edits to apply; line numbers refer to the file before any edit",
      .edits, .required⟩]
  definitions := [editDefinition]

def renameSymbol : ToolInput where
  title := "RenameSymbolParams"
  description := "Input for the `rename_symbol` tool."
  arguments := [
    ⟨"filePath", "Path to the file containing the symbol", .text, .required⟩,
    ⟨"line", "Line number of the symbol (1-indexed)", .place, .required⟩,
    ⟨"column", "Column number of the symbol (1-indexed)", .place, .required⟩,
    ⟨"newName", "New name for the symbol", .text, .required⟩]

def getCodeLens : ToolInput where
  title := "GetCodeLensParams"
  description := "Input for the `get_codelens` tool."
  arguments := [⟨"filePath", "Path to the file", .text, .required⟩]

def executeCodeLens : ToolInput where
  title := "ExecuteCodeLensParams"
  description := "Input for the `execute_codelens` tool."
  arguments := [
    ⟨"filePath", "Path to the file", .text, .required⟩,
    ⟨"index", "Index of the code lens as listed by get_codelens (1-indexed)",
      .count, .required⟩]

end ToolInput

/-! # Tools -/

namespace ToolName

def input : ToolName → ToolInput
  | .definition | .references => .symbol
  | .hover | .signatureHelp => .position
  | .diagnostics => .diagnostics
  | .documentSymbols => .documentSymbols
  | .callHierarchy => .callHierarchy
  | .codeActions => .codeActions
  | .completions => .completions
  | .editFile => .editFile
  | .renameSymbol => .renameSymbol
  | .getCodeLens => .getCodeLens
  | .executeCodeLens => .executeCodeLens

def purpose : ToolName → String
  | .definition =>
    "Read the source code definition of a symbol (function, type, constant, " ++
    "method) by name. Returns the full definition with line numbers."
  | .references =>
    "Find every usage of a symbol across the codebase, grouped by file with " ++
    "surrounding source lines."
  | .diagnostics =>
    "Get errors and warnings for a file, with the offending source lines."
  | .hover =>
    "Get type signature and docs for the symbol at a position. " ++
    "Lines and columns are 1-indexed."
  | .documentSymbols =>
    "List all symbols in a file as a tree: functions, types, fields, constants."
  | .callHierarchy =>
    "Show the callers ('incoming') or callees ('outgoing') of the function at " ++
    "a position. Lines and columns are 1-indexed."
  | .signatureHelp =>
    "Show the signature of the function being called at a position, with " ++
    "the active parameter marked. Lines and columns are 1-indexed."
  | .codeActions =>
    "List quick fixes and refactorings available for a range. " ++
    "Lines and columns are 1-indexed."
  | .completions =>
    "List completion candidates at a position, best first. " ++
    "Lines and columns are 1-indexed."
  | .editFile =>
    "Replace whole lines of a file. Each edit gives 1-indexed inclusive " ++
    "startLine/endLine and the new text; an empty newText deletes the lines."
  | .renameSymbol =>
    "Rename the symbol at a position everywhere it is used. The language " ++
    "server computes the edits; they are written to disk and synced. " ++
    "Lines and columns are 1-indexed."
  | .getCodeLens =>
    "List the code lenses of a file (run/test/reference counts and similar " ++
    "inline actions), numbered for execute_codelens."
  | .executeCodeLens =>
    "Execute the command of a code lens. The index is the 1-indexed number " ++
    "shown by get_codelens for the same file."

def listing (t : ToolName) : Json :=
  Json.ofMembers [("name", .str t.text), ("description", .str t.purpose),
    ("inputSchema", t.input.schema)]

end ToolName
end CodeIntel
