import CodeIntel.Client.Exchange
import CodeIntel.Protocol.CodeAction

/-!
# Queries

What a client can ask a server. A file is opened before the server is asked
about it.
-/

namespace CodeIntel
namespace Client

variable {σ : Type}

/-! # Documents -/

def openFile (path : FilePath) : ClientM σ Url :=
  onFiles fun disk => Documents.openFile disk path

def reopenFile (path : FilePath) : ClientM σ Url :=
  onFiles fun disk => Documents.reopenFile disk path

def changeFile (path : FilePath) (content : String) : ClientM σ Nat :=
  onFiles fun disk => Documents.changeFile disk path content

def closeFile (path : FilePath) : ClientM σ Unit :=
  onFiles fun disk => Documents.closeFile disk path

def document? (path : FilePath) (c : Client σ) : Option OpenDocument :=
  c.documents.document? c.disk path

/-- The text of a file: what the server was told, or else what is on the
disk. -/
def text (path : FilePath) (c : Client σ) : Except DiskError String :=
  match c.document? path with
  | some d => .ok d.content
  | none => c.disk.readText path

/-! # Questions about a place -/

def askPlace (r : Request α) (path : FilePath) (p : Position)
    (members : Members) : ClientM σ α := do
  let uri ← openFile path
  request r (Members.toJson (Members.place uri p ++ members))

def definition (path : FilePath) (p : Position) :
    ClientM σ (List Location) := do
  let found ← askPlace Request.definition path p []
  pure (Definition.locations found)

def references (path : FilePath) (p : Position) (includeDeclaration : Bool) :
    ClientM σ (List Location) := do
  let context := Members.referenceContext includeDeclaration
  let found ← askPlace Request.references path p [("context", some context)]
  pure (found.getD [])

def hover (path : FilePath) (p : Position) : ClientM σ (Option Hover) :=
  askPlace Request.hover path p []

def prepareCallHierarchy (path : FilePath) (p : Position) :
    ClientM σ (List CallItem) := do
  let found ← askPlace Request.prepareCallHierarchy path p []
  pure (found.getD [])

def completion (path : FilePath) (p : Position) :
    ClientM σ (Option Completions) :=
  askPlace Request.completion path p []

def signatureHelp (path : FilePath) (p : Position) :
    ClientM σ (Option SignatureHelp) :=
  askPlace Request.signatureHelp path p []

def rename (path : FilePath) (p : Position) (newName : String) :
    ClientM σ (Option WorkspaceEdit) :=
  askPlace Request.rename path p [("newName", some (.str newName))]

/-! # Questions about a document -/

def askDocument (r : Request α) (path : FilePath) : ClientM σ α := do
  let uri ← openFile path
  request r (Members.toJson (Members.document uri))

def documentSymbols (path : FilePath) : ClientM σ (Option DocumentSymbols) :=
  askDocument Request.documentSymbols path

def codeLenses (path : FilePath) : ClientM σ (List CodeLens) := do
  let found ← askDocument Request.codeLens path
  pure (found.getD [])

def codeActionParams (uri : Url) (range : Range) (known : List Diagnostic) :
    Json :=
  Members.toJson (Members.document uri ++ [("range", some range.toJson),
    ("context", some (Json.ofMembers
      [("diagnostics", .ofList Diagnostic.toJson known)]))])

/-- The actions for a range. The diagnostics known so far are sent along. -/
def codeActions (path : FilePath) (range : Range) :
    ClientM σ (List CodeActionEntry) := do
  let uri ← openFile path
  let known := (← getThe (Client σ)).store.get uri
  let answer ← call "textDocument/codeAction" (codeActionParams uri range known)
  pure (CodeActionEntry.decodeAll answer)

/-! # Other questions -/

def workspaceSymbols (query : String) : ClientM σ (Option WorkspaceSymbols) :=
  request Request.workspaceSymbols (Json.ofMembers [("query", .str query)])

def calls (direction : CallDirection) (item : CallItem) :
    ClientM σ (List Call) := do
  let found ← request (Request.calls direction)
    (Json.ofMembers [("item", item.toJson)])
  pure (found.getD [])

def resolveCodeLens (lens : CodeLens) : ClientM σ CodeLens :=
  request Request.resolveCodeLens lens.toJson

def executeCommand (command : Command) : ClientM σ (Option Json) :=
  request Request.executeCommand
    (Json.ofMembers [("command", .str command.command),
    ("arguments", .arr (command.arguments.getD []))])

end Client
end CodeIntel
