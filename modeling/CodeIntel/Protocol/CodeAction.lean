import CodeIntel.Protocol.Command

/-!
# Code actions

An answer may mix bare commands with full code actions; each entry is decoded
once. An entry whose `command` is a string is a command, one whose `title` is a
string is an action, and whatever decodes as neither is kept as it is.
-/

namespace CodeIntel

structure CodeAction where
  title : String
  kind : Option String
  diagnostics : Option (List Diagnostic)
  edit : Option WorkspaceEdit
  command : Option Command
  isPreferred : Option Bool
  disabled : Option String
  data : Option Json
deriving DecidableEq, Repr

namespace CodeAction

def decodeDisabled? (v : Json) : Option String :=
  v.only? Json.str? "reason"

def decode? (v : Json) : Option CodeAction := do
  let v ← v.record? ["title", "kind", "diagnostics", "edit", "command",
      "isPreferred", "disabled", "data"]
  let title ← v.field? Json.str? "title"
  let kind ← v.optional? Json.str? "kind"
  let diagnostics ← v.optional? (Json.list? Diagnostic.decode?) "diagnostics"
  let edit ← v.optional? WorkspaceEdit.decode? "edit"
  let command ← v.optional? Command.decode? "command"
  let isPreferred ← v.optional? Json.bool? "isPreferred"
  let disabled ← v.optional? decodeDisabled? "disabled"
  let data ← v.optional? Json.any? "data"
  some ⟨title, kind, diagnostics, edit, command, isPreferred, disabled, data⟩

def toJson (a : CodeAction) : Json :=
  Json.ofOptions [("title", some (.str a.title)), ("kind", a.kind.map .str),
    ("diagnostics", a.diagnostics.map (.ofList Diagnostic.toJson)),
    ("edit", a.edit.map WorkspaceEdit.toJson),
    ("command", a.command.map Command.toJson),
    ("isPreferred", a.isPreferred.map .bool),
    ("disabled", a.disabled.map fun r => Json.ofMembers [("reason", .str r)]),
    ("data", a.data)]

end CodeAction

inductive CodeActionEntry where
  | action (a : CodeAction)
  | command (c : Command)
  | unrecognized (v : Json)
deriving DecidableEq, Repr

namespace CodeActionEntry

def hasString (name : String) (v : Json) : Bool :=
  ((v.get? name).bind Json.str?).isSome

def decode (v : Json) : CodeActionEntry :=
  if hasString "command" v then
    ((Command.decode? v).map .command).getD (.unrecognized v)
  else if hasString "title" v then
    ((CodeAction.decode? v).map .action).getD (.unrecognized v)
  else .unrecognized v

/-- The entries of a whole answer; null has none. -/
def decodeAll : Json → List CodeActionEntry
  | .arr items => items.map decode
  | .null => []
  | v => [.unrecognized v]

def title? : CodeActionEntry → Option String
  | .action a => some a.title
  | .command c => some c.title
  | .unrecognized _ => none

def toJson : CodeActionEntry → Json
  | .action a => a.toJson
  | .command c => c.toJson
  | .unrecognized v => v

end CodeActionEntry
end CodeIntel
