import CodeIntel.Protocol.CallHierarchy
import CodeIntel.Protocol.Completion

/-!
# Requests and their answers

The requests whose parameters and answers have a type: what is written for their
parameters, and how their answers are read. An answer that may be missing is
null.
-/

namespace CodeIntel

/-! # Parameters -/

/-- The members of a request's parameters, those that are missing left out. -/
abbrev Members := List (String × Option Json)

namespace Members

def required? (decode : Json → Option α) (encode : α → Json) (name : String)
    (v : Json) :
    Option Members :=
  (v.field? decode name).map fun a => [(name, some (encode a))]

def optional? (decode : Json → Option α) (encode : α → Json) (name : String)
    (v : Json) :
    Option Members :=
  (v.optional? decode name).map fun a => [(name, a.map encode)]

def all? (readers : List (Json → Option Members)) (v : Json) : Option Members :=
  (readers.mapM fun (r : Json → Option Members) => r v).map List.flatten

def document (uri : Url) : Members :=
  [("textDocument", some (Json.ofMembers [("uri", uri.toJson)]))]

def place (uri : Url) (p : Position) : Members :=
  document uri ++ [("position", some p.toJson)]

def documentUri? (v : Json) : Option Url :=
  v.only? Url.decode? "uri"

def document? : Json → Option Members :=
  required? documentUri? (fun u => Json.ofMembers [("uri", u.toJson)])
    "textDocument"

def place? : Json → Option Members :=
  all? [document?, required? Position.decode? Position.toJson "position"]

/-- The name under which progress is reported: a number or a text. -/
def token? (v : Json) : Option Json :=
  if (Json.i32? v).isSome || v.str?.isSome then some v else none

def progress? : Json → Option Members :=
  optional? token? id "workDoneToken"

def partialResults? : Json → Option Members :=
  optional? token? id "partialResultToken"

def completionContext? (v : Json) : Option Json := do
  let v ← v.record? ["triggerKind", "triggerCharacter"]
  let kind ← v.field? Json.i32? "triggerKind"
  let character ← v.optional? Json.str? "triggerCharacter"
  some (Json.ofOptions [("triggerKind", some (.int kind)),
    ("triggerCharacter", character.map .str)])

def signatureContext? (v : Json) : Option Json := do
  let v ← v.record? ["triggerKind", "triggerCharacter", "isRetrigger",
      "activeSignatureHelp"]
  let kind ← v.field? Json.i32? "triggerKind"
  let character ← v.optional? Json.str? "triggerCharacter"
  let again ← v.field? Json.bool? "isRetrigger"
  let active ← v.optional? SignatureHelp.decode? "activeSignatureHelp"
  some (Json.ofOptions [("triggerKind", some (.int kind)),
    ("triggerCharacter", character.map .str),
    ("isRetrigger", some (.bool again)),
    ("activeSignatureHelp", active.map SignatureHelp.toJson)])

def referenceContext (includeDeclaration : Bool) : Json :=
  Json.ofMembers [("includeDeclaration", .bool includeDeclaration)]

def referenceContext? (v : Json) : Option Json :=
  (v.only? Json.bool? "includeDeclaration").map referenceContext

def arguments? (v : Json) : Option Members :=
  match v.get? "arguments" with
  | none => some [("arguments", some (.arr []))]
  | some (.arr items) => some [("arguments", some (.arr items))]
  | some _ => none

def toJson (m : Members) : Json :=
  Json.ofOptions m

end Members

/-! # Requests -/

structure Request (α : Type) where
  method : String
  decode? : Json → Option α
  toJson : α → Json

namespace Request

def nullable (method : String) (decode : Json → Option α) (encode : α → Json) :
    Request (Option α) :=
  ⟨method, Json.orNull? decode, .ofOption encode⟩

def listing (method : String) (decode : Json → Option α) (encode : α → Json) :
    Request (Option (List α)) :=
  nullable method (Json.list? decode) (.ofList encode)

def definition : Request (Option Definition) :=
  nullable "textDocument/definition" Definition.decode? Definition.toJson

def references : Request (Option (List Location)) :=
  listing "textDocument/references" Location.decode? Location.toJson

def hover : Request (Option Hover) :=
  nullable "textDocument/hover" Hover.decode? Hover.toJson

def documentSymbols : Request (Option DocumentSymbols) :=
  nullable "textDocument/documentSymbol" DocumentSymbols.decode?
    DocumentSymbols.toJson

def workspaceSymbols : Request (Option WorkspaceSymbols) :=
  nullable "workspace/symbol" WorkspaceSymbols.decode? WorkspaceSymbols.toJson

def prepareCallHierarchy : Request (Option (List CallItem)) :=
  listing "textDocument/prepareCallHierarchy" CallItem.decode? CallItem.toJson

def callsMethod : CallDirection → String
  | .incoming => "callHierarchy/incomingCalls"
  | .outgoing => "callHierarchy/outgoingCalls"

def calls (direction : CallDirection) : Request (Option (List Call)) :=
  listing (callsMethod direction) (Call.decode? direction)
    (Call.toJson direction)

def completion : Request (Option Completions) :=
  nullable "textDocument/completion" Completions.decode? Completions.toJson

def signatureHelp : Request (Option SignatureHelp) :=
  nullable "textDocument/signatureHelp" SignatureHelp.decode?
    SignatureHelp.toJson

def rename : Request (Option WorkspaceEdit) :=
  nullable "textDocument/rename" WorkspaceEdit.decode? WorkspaceEdit.toJson

def codeLens : Request (Option (List CodeLens)) :=
  listing "textDocument/codeLens" CodeLens.decode? CodeLens.toJson

def resolveCodeLens : Request CodeLens :=
  ⟨"codeLens/resolve", CodeLens.decode?, CodeLens.toJson⟩

def executeCommand : Request (Option Json) :=
  nullable "workspace/executeCommand" Json.any? id

end Request

/-! # Methods by name -/

structure TypedMethod where
  name : String
  params? : Json → Option Json
  result? : Json → Option Json

namespace TypedMethod

def ofRequest (r : Request α) (params? : Json → Option Json) : TypedMethod :=
  ⟨r.method, params?, fun v => (r.decode? v).map r.toJson⟩

def ofMembers (r : Request α) (readers : List (Json → Option Members)) :
    TypedMethod :=
  ofRequest r fun v => (Members.all? readers v).map Members.toJson

open Members in
def all : List TypedMethod := [
  ofMembers Request.definition [place?, progress?, partialResults?],
  ofMembers Request.references [place?, progress?, partialResults?,
    required? referenceContext? id "context"],
  ofMembers Request.hover [place?, progress?],
  ofMembers Request.documentSymbols [document?, progress?, partialResults?],
  ofMembers Request.workspaceSymbols [required? Json.str? .str "query",
    progress?, partialResults?],
  ofMembers Request.prepareCallHierarchy [place?, progress?],
  ofMembers (Request.calls .incoming)
    [required? CallItem.decode? CallItem.toJson "item", progress?,
    partialResults?],
  ofMembers (Request.calls .outgoing)
    [required? CallItem.decode? CallItem.toJson "item", progress?,
    partialResults?],
  ofMembers Request.completion [place?, progress?, partialResults?,
    optional? completionContext? id "context"],
  ofMembers Request.signatureHelp [place?, progress?,
    optional? signatureContext? id "context"],
  ofMembers Request.rename [place?, required? Json.str? .str "newName",
    progress?],
  ofMembers Request.codeLens [document?, progress?, partialResults?],
  ofRequest Request.resolveCodeLens fun v =>
    (CodeLens.decode? v).map CodeLens.toJson,
  ofMembers Request.executeCommand [required? Json.str? .str "command",
    arguments?, progress?]]

def ofName? (name : String) : Option TypedMethod :=
  all.find? fun m => m.name = name

end TypedMethod
end CodeIntel
