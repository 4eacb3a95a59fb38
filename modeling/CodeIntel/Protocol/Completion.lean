import CodeIntel.Protocol.Command
import CodeIntel.Protocol.Markup

/-!
# Completions
-/

namespace CodeIntel

/-- A completion kind is a number; the protocol names the first 25. -/
structure CompletionKind where
  code : Int
deriving DecidableEq, Repr

namespace CompletionKind

def decode? (v : Json) : Option CompletionKind :=
  (Json.i32? v).map (⟨·⟩)

def toJson (k : CompletionKind) : Json :=
  .int k.code

def names : List String :=
  ["Text", "Method", "Function", "Constructor", "Field", "Variable", "Class",
    "Interface", "Module", "Property", "Unit", "Value", "Enum", "Keyword",
    "Snippet", "Color", "File", "Reference", "Folder",
    "EnumMember", "Constant", "Struct", "Event", "Operator", "TypeParameter"]

def name (k : CompletionKind) : String :=
  if 1 ≤ k.code then (names[k.code.toNat - 1]?).getD "Unknown" else "Unknown"

end CompletionKind

structure LabelDetails where
  detail : Option String
  description : Option String
deriving DecidableEq, Repr

namespace LabelDetails

def decode? (v : Json) : Option LabelDetails := do
  let v ← v.record? ["detail", "description"]
  let detail ← v.optional? Json.str? "detail"
  let description ← v.optional? Json.str? "description"
  some ⟨detail, description⟩

def toJson (d : LabelDetails) : Json :=
  Json.ofOptions [("detail", d.detail.map .str),
    ("description", d.description.map .str)]

end LabelDetails

/-- What a completion puts into the text: one edit, or one that inserts and one
that replaces. -/
inductive CompletionEdit where
  | edit (e : TextEdit)
  | insertOrReplace (newText : String) (insert replace : Range)
deriving DecidableEq, Repr

namespace CompletionEdit

def decode? (v : Json) : Option CompletionEdit :=
  ((TextEdit.decode? v).map .edit).or do
    let v ← v.record? ["newText", "insert", "replace"]
    let newText ← v.field? Json.str? "newText"
    let insert ← v.field? Range.decode? "insert"
    let replace ← v.field? Range.decode? "replace"
    some (.insertOrReplace newText insert replace)

def toJson : CompletionEdit → Json
  | .edit e => e.toJson
  | .insertOrReplace newText insert replace =>
    Json.ofMembers
      [("newText", .str newText), ("insert", insert.toJson),
        ("replace", replace.toJson)]

end CompletionEdit

structure CompletionItem where
  label : String
  labelDetails : Option LabelDetails
  kind : Option CompletionKind
  detail : Option String
  documentation : Option Documentation
  deprecated : Option Bool
  preselect : Option Bool
  sortText : Option String
  filterText : Option String
  insertText : Option String
  insertTextFormat : Option Int
  insertTextMode : Option Int
  textEdit : Option CompletionEdit
  additionalTextEdits : Option (List TextEdit)
  command : Option Command
  commitCharacters : Option (List String)
  data : Option Json
  tags : Option (List Int)
deriving DecidableEq, Repr

namespace CompletionItem

def decode? (v : Json) : Option CompletionItem := do
  let v ← v.record? ["label", "labelDetails", "kind", "detail", "documentation",
      "deprecated", "preselect", "sortText", "filterText", "insertText",
      "insertTextFormat", "insertTextMode", "textEdit", "additionalTextEdits",
      "command", "commitCharacters", "data", "tags"]
  let label ← v.field? Json.str? "label"
  let labelDetails ← v.optional? LabelDetails.decode? "labelDetails"
  let kind ← v.optional? CompletionKind.decode? "kind"
  let detail ← v.optional? Json.str? "detail"
  let documentation ← v.optional? Documentation.decode? "documentation"
  let deprecated ← v.optional? Json.bool? "deprecated"
  let preselect ← v.optional? Json.bool? "preselect"
  let sortText ← v.optional? Json.str? "sortText"
  let filterText ← v.optional? Json.str? "filterText"
  let insertText ← v.optional? Json.str? "insertText"
  let insertTextFormat ← v.optional? Json.i32? "insertTextFormat"
  let insertTextMode ← v.optional? Json.i32? "insertTextMode"
  let textEdit ← v.optional? CompletionEdit.decode? "textEdit"
  let additionalTextEdits ← v.optional? (Json.list? TextEdit.decode?)
    "additionalTextEdits"
  let command ← v.optional? Command.decode? "command"
  let commitCharacters ← v.optional? (Json.list? Json.str?) "commitCharacters"
  let data ← v.optional? Json.any? "data"
  let tags ← v.optional? (Json.list? Json.i32?) "tags"
  some ⟨label, labelDetails, kind, detail, documentation, deprecated, preselect,
    sortText, filterText, insertText, insertTextFormat, insertTextMode,
    textEdit, additionalTextEdits, command, commitCharacters, data, tags⟩

def toJson (c : CompletionItem) : Json :=
  Json.ofOptions [("label", some (.str c.label)),
    ("labelDetails", c.labelDetails.map LabelDetails.toJson),
    ("kind", c.kind.map CompletionKind.toJson), ("detail", c.detail.map .str),
    ("documentation", c.documentation.map Documentation.toJson),
    ("deprecated", c.deprecated.map .bool),
    ("preselect", c.preselect.map .bool),
    ("sortText", c.sortText.map .str), ("filterText", c.filterText.map .str),
    ("insertText", c.insertText.map .str),
    ("insertTextFormat", c.insertTextFormat.map .int),
    ("insertTextMode", c.insertTextMode.map .int),
    ("textEdit", c.textEdit.map CompletionEdit.toJson),
    ("additionalTextEdits",
      c.additionalTextEdits.map (.ofList TextEdit.toJson)),
    ("command", c.command.map Command.toJson),
    ("commitCharacters", c.commitCharacters.map (.ofList .str)),
    ("data", c.data), ("tags", c.tags.map (.ofList .int))]

end CompletionItem

inductive Completions where
  | items (items : List CompletionItem)
  | list (isIncomplete : Bool) (items : List CompletionItem)
deriving DecidableEq, Repr

namespace Completions

def decode? (v : Json) : Option Completions :=
  ((Json.list? CompletionItem.decode? v).map .items).or do
    let v ← v.record? ["isIncomplete", "items"]
    let isIncomplete ← v.field? Json.bool? "isIncomplete"
    let items ← v.field? (Json.list? CompletionItem.decode?) "items"
    some (.list isIncomplete items)

def toJson : Completions → Json
  | .items is => .ofList CompletionItem.toJson is
  | .list isIncomplete is =>
    Json.ofMembers [("isIncomplete", .bool isIncomplete),
      ("items", .ofList CompletionItem.toJson is)]

def entries : Completions → List CompletionItem
  | .items is => is
  | .list _ is => is

end Completions
end CodeIntel
