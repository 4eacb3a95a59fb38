import CodeIntel.Client.Exchange

/-!
# The first exchange with a server

The client says what it can do, the server answers with its capabilities, and
the client confirms.
-/

namespace CodeIntel

structure ProductName where
  name : String
  version : String
deriving DecidableEq, Repr

def ProductName.own : ProductName := ⟨"lsp-bridge", "0.1.0"⟩

namespace Handshake

/-! # What a client can do -/

def static (members : List (String × Json)) : Json :=
  Json.ofMembers (("dynamicRegistration", .bool false) :: members)

def markupKinds : Json :=
  .arr [.str "markdown", .str "plaintext"]

def workspaceFeatures : Json :=
  Json.ofMembers [
    ("configuration", .bool true),
    ("workspaceFolders", .bool true),
    ("didChangeConfiguration", static []),
    ("executeCommand", static []),
    ("workspaceEdit", Json.ofMembers [("documentChanges", .bool true)]),
    ("symbol", static [])]

def documentFeatures : Json :=
  Json.ofMembers [
    ("synchronization",
      static [("willSave", .bool false), ("willSaveWaitUntil", .bool false),
      ("didSave", .bool false)]),
    ("completion", static
      [("completionItem", Json.ofMembers [("snippetSupport", .bool false),
      ("documentationFormat", markupKinds)])]),
    ("hover", static [("contentFormat", markupKinds)]),
    ("signatureHelp", static []),
    ("definition", static [("linkSupport", .bool true)]),
    ("references", static []),
    ("documentSymbol",
      static [("hierarchicalDocumentSymbolSupport", .bool true)]),
    ("codeAction", static []),
    ("rename", static [("prepareSupport", .bool true)]),
    ("publishDiagnostics", Json.ofMembers [("relatedInformation", .bool true),
      ("versionSupport", .bool true)]),
    ("codeLens", static []),
    ("callHierarchy", static [])]

def features : Json :=
  Json.ofMembers [
    ("workspace", workspaceFeatures),
    ("textDocument", documentFeatures),
    ("window", Json.ofMembers [("workDoneProgress", .bool true)])]

def workspaceName (root : FilePath) : String :=
  (root.fileName?.bind Utf8.decode?).getD "workspace"

/-- The parameters of the first request of the process numbered `processId`. -/
def params (processId : Json) (root : FilePath) (uri : Url) : Json :=
  Json.ofMembers [
    ("processId", processId),
    ("rootUri", .null),
    ("capabilities", features),
    ("trace", .str "off"),
    ("workspaceFolders", .arr [Json.ofMembers [("uri", uri.toJson),
      ("name", .str (workspaceName root))]]),
    ("clientInfo", Json.ofMembers [("name", .str ProductName.own.name),
      ("version", .str ProductName.own.version)])]

end Handshake

namespace Client

variable {σ : Type}

/-- The parameters of the first request. A process does not need to know our
number. -/
def handshakeParams (c : Client σ) : Except ClientFault Json :=
  match Url.ofPath? c.root with
  | some uri => .ok (Handshake.params .null c.root uri)
  | none => .error (.documentNotFound s!"invalid path: {c.root.text}")

/-- A handshake that times out says so; any other fault ends it in a word of its
own. -/
def handshakeFault : ClientFault → ClientFault
  | .timeout limit => .timeout limit
  | f => .initializationFailed ("initialize request failed: " ++ f.message)

/-- A client becomes ready once, unless its end has begun. -/
def markReady : ClientM σ Unit := do
  match (← getThe (Client σ)).state.markReady with
  | some state => modifyThe (Client σ) fun c => { c with state := state }
  | none =>
    throw (.initializationFailed "client was closed during initialization")

def handshake : ClientM σ Unit := do
  let c ← getThe (Client σ)
  let params ← liftExcept c.handshakeParams
  let result ← tryCatch (callWithin c.config.initTimeoutMs "initialize" params)
    fun f => throw (handshakeFault f)
  modifyThe (Client σ) fun c =>
    { c with capabilities := .ofInitializeResult result }
  tryCatch (notify "initialized" Json.empty)
    fun f =>
      throw (.initializationFailed ("initialized notification failed: " ++
        f.message))
  markReady

end Client
end CodeIntel
