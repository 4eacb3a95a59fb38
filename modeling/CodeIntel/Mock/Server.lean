import CodeIntel.Message
import CodeIntel.Mock.Fixture
import CodeIntel.Mock.Options
import CodeIntel.Text.Lines

/-!
# The scripted server

A language server that answers from a fixture. It keeps the documents it is told
about and reports one diagnostic for each line that holds a marker word. A few
methods of its own tell what it has seen.
-/

namespace CodeIntel
namespace Mock

/-! # Marker words -/

def find? (word : List Char) : List Char → Option Nat
  | [] => if word.isEmpty then some 0 else none
  | c :: rest =>
    if word.isPrefixOf (c :: rest) then some 0
    else (find? word rest).map (· + c.utf8Size)

def diagnostic (line column severity : Nat) (word : String) : Json :=
  let place (column : Nat) :=
    Json.ofMembers [("line", .ofNat line), ("character", .ofNat column)]
  Json.ofMembers [
    ("range", Json.ofMembers [("start", place column),
      ("end", place (column + word.length))]),
    ("severity", .ofNat severity),
    ("code", .str "E001"),
    ("source", .str "mockls"),
    ("message", .str s!"found {word}")]

/-- A line is an error if it holds the word `ERROR`, else a warning if it holds
`WARN`. -/
def lineDiagnostic? (text : List Char) (line : Nat) : Option Json :=
  match find? "ERROR".toList text with
  | some column => some (diagnostic line column 1 "ERROR")
  | none =>
    (find? "WARN".toList text).map fun column => diagnostic line column 2 "WARN"

def diagnostics (text : String) : List Json :=
  (Text.lines text.toList).zipIdx.filterMap fun (text, line) =>
    lineDiagnostic? text line

/-! # State -/

structure Document where
  version : Int
  text : String
  isOpen : Bool
  /-- How many times it was opened. -/
  opens : Nat
deriving DecidableEq, Repr

namespace Document

def toJson (d : Document) : Json :=
  Json.ofMembers [("open", .bool d.isOpen), ("version", .int d.version),
    ("text", .str d.text), ("opens", .ofNat d.opens)]

end Document

def firstRequestId : Nat := 9000

structure Server where
  behaviour : Behaviour
  fixture : Fixture
  documents : List (String × Document) := []
  /-- The parameters of the last request about a position. -/
  lastPosition : Json := .null
  /-- What its own requests were answered. -/
  replies : List Json := []
  nextId : Nat := firstRequestId
  wasShutDown : Bool := false
  written : List Message := []
  /-- The methods of all requests and notifications so far. -/
  journal : List String := []
  /-- The exit code, once the server has ended. -/
  exitCode : Option Nat := none

namespace Server

def crashCode : Nat := 3

def write (s : Server) (m : Message) : Server :=
  { s with written := s.written ++ [m] }

def notify (s : Server) (method : String) (params : Json) : Server :=
  s.write (.notification method params)

def request (s : Server) (method : String) (params : Json) : Server :=
  { s.write (.request s.nextId method params) with nextId := s.nextId + 1 }

def succeed (s : Server) (id result : Json) : Server :=
  s.write (.success id result)

def fail (s : Server) (id : Json) (code : Int) (message : String) : Server :=
  s.write (.failure id ⟨code, message, none⟩)

def exit (s : Server) (code : Nat) : Server :=
  { s with exitCode := some code }

/-! # Documents -/

def document? (s : Server) (uri : String) : Option Document :=
  Fixture.under? uri s.documents

def setDocument (s : Server) (uri : String) (d : Document) : Server :=
  { s with documents := (uri, d) :: s.documents.filter fun e => e.1 ≠ uri }

def changeDocument (s : Server) (uri : String) (change : Document → Document) :
    Server :=
  match s.document? uri with
  | some d => s.setDocument uri (change d)
  | none => s

def publish (s : Server) (uri : String) : Server :=
  match s.behaviour.withoutDiagnostics, s.document? uri with
  | false, some d =>
    s.notify "textDocument/publishDiagnostics"
      (Json.ofMembers [("uri", .str uri),
      ("version", .int d.version), ("diagnostics", .arr (diagnostics d.text))])
  | _, _ => s

def textAt (path : List String) (params : Json) : String :=
  ((params.follow? path).bind Json.str?).getD ""

def versionOf (params : Json) : Int :=
  ((params.follow? ["textDocument", "version"]).bind Json.i64?).getD 0

/-! # Requests -/

def ownCapabilities : Json :=
  Json.ofMembers [
    ("textDocumentSync", .ofNat 1),
    ("definitionProvider", .bool true),
    ("referencesProvider", .bool true),
    ("hoverProvider", .bool true),
    ("documentSymbolProvider", .bool true),
    ("workspaceSymbolProvider", .bool true),
    ("callHierarchyProvider", .bool true),
    ("renameProvider", .bool true),
    ("codeActionProvider", .bool true),
    ("codeLensProvider", Json.ofMembers [("resolveProvider", .bool true)]),
    ("executeCommandProvider",
      Json.ofMembers [("commands", .arr [.str "mockls.run"])]),
    ("signatureHelpProvider",
      Json.ofMembers [("triggerCharacters", .arr [.str "(", .str ","])]),
    ("completionProvider",
      Json.ofMembers [("triggerCharacters", .arr [.str "."])])]

/-- The capabilities that the server claims to have, unless their text is
none. -/
def capabilities? (b : Behaviour) : Option Json :=
  match b.capabilities with
  | some text => Json.parse? text
  | none => some ownCapabilities

/-- Resolving a lens moves its data to its command. -/
def resolveLens (lens : Json) : Json :=
  match lens.get? "data" with
  | some data => (lens.set "data" .null).set "command" data
  | none => lens

def tick (s : Server) (count : Nat) : Server :=
  (List.range count).foldl
    (fun s n => s.notify "mockls/tick" (Json.ofMembers [("n", .ofNat n)])) s

def answerInitialize (s : Server) (id : Json) : Server :=
  match capabilities? s.behaviour with
  | some capabilities =>
    s.succeed id (Json.ofMembers [("capabilities", capabilities),
      ("serverInfo", Json.ofMembers [("name", .str "mockls"),
        ("version", .str "0.1.0")])])
  | none => s.exit 1

def answerOwn (s : Server) (id : Json) (method : String) (params : Json) :
    Server :=
  match method with
  | "mockls/documentState" =>
    s.succeed id (Json.ofOption Document.toJson
      (s.document? (textAt ["uri"] params)))
  | "mockls/lastPosition" => s.succeed id s.lastPosition
  | "mockls/notify" =>
    let count := (Json.u64? (params.get "count")).getD 1
    (s.tick count).succeed id (.ofNat count)
  | "mockls/replies" => s.succeed id (.arr s.replies)
  | "mockls/echo" => s.succeed id params
  | "mockls/crash" => s.exit crashCode
  | _ => s.fail id (-32601) s!"unknown mockls method {method}"

def answer (s : Server) (id : Json) (method : String) (params : Json) :
    Server :=
  match method with
  | "initialize" => s.answerInitialize id
  | "shutdown" => { s with wasShutDown := true }.succeed id .null
  | "codeLens/resolve" => s.succeed id (resolveLens params)
  | "workspace/executeCommand" =>
    s.succeed id (Json.ofMembers [("executed", params.get "command"),
      ("arguments", params.get "arguments")])
  | _ =>
    if method.startsWith "mockls/" then s.answerOwn id method params
    else s.succeed id (s.fixture.answer method params)

def notePosition (s : Server) (params : Json) : Server :=
  if (params.get? "position").isSome then { s with lastPosition := params }
  else s

def handleRequest (s : Server) (id : Json) (method : String) (params : Json) :
    Server :=
  if s.behaviour.silentOn.contains method then s
  else if s.behaviour.failsOn.contains method then
    s.fail id (-32603) s!"mockls: forced failure for {method}"
  else (s.notePosition params).answer id method params

/-! # Notifications -/

/-- The requests that the server may send once it is initialized. -/
def askConfiguration (s : Server) : Server :=
  let item (name : String) := Json.ofMembers [("section", .str name)]
  let s :=
    s.request "workspace/configuration"
      (Json.ofMembers [("items", .arr [item "a", item "b"])])
  let s :=
    s.request "window/workDoneProgress/create"
      (Json.ofMembers [("token", .str "t")])
  s.request "mockls/unknownServerRequest" .null

def noteInitialized (s : Server) : Server :=
  let s := s.notify "window/logMessage"
    (Json.ofMembers [("type", .ofNat 3), ("message", .str "mockls ready")])
  if s.behaviour.asksConfiguration then s.askConfiguration else s

def noteOpen (s : Server) (params : Json) : Server :=
  let uri := textAt ["textDocument", "uri"] params
  let opens := ((s.document? uri).map Document.opens).getD 0 + 1
  let d : Document :=
    ⟨versionOf params, textAt ["textDocument", "text"] params, true, opens⟩
  (s.setDocument uri d).publish uri

def noteChange (s : Server) (params : Json) : Server :=
  let uri := textAt ["textDocument", "uri"] params
  let text := textAt ["contentChanges", "0", "text"] params
  let s := s.changeDocument uri fun d =>
    { d with version := versionOf params, text := text }
  s.publish uri

def noteClose (s : Server) (params : Json) : Server :=
  s.changeDocument (textAt ["textDocument", "uri"] params) fun d =>
    { d with isOpen := false }

def noteExit (s : Server) : Server :=
  if s.behaviour.staysAlive then s else s.exit (if s.wasShutDown then 0 else 1)

def handleNotification (s : Server) (method : String) (params : Json) :
    Server :=
  match method with
  | "initialized" => s.noteInitialized
  | "textDocument/didOpen" => s.noteOpen params
  | "textDocument/didChange" => s.noteChange params
  | "textDocument/didClose" => s.noteClose params
  | "exit" => s.noteExit
  | _ => s

/-! # Frames -/

def noteReply (s : Server) (id : Nat) (outcome : Outcome) : Server :=
  let reply := match outcome with
    | .ok result => Json.ofMembers [("id", .ofNat id), ("result", result)]
    | .error e =>
      Json.ofMembers [("id", .ofNat id), ("error", .str e.message),
        ("code", .int e.code)]
  { s with replies := s.replies ++ [reply] }

def noteMethod (s : Server) (frame : Json) : Server :=
  match (frame.get? "method").bind Json.str? with
  | some method => { s with journal := s.journal ++ [method] }
  | none => s

/-- Handles one frame, unless the server has ended. -/
def receive (s : Server) (frame : Json) : Server :=
  if s.exitCode.isSome then s
  else
    let s := s.noteMethod frame
    match Incoming.classify frame with
    | .request id method params => s.handleRequest id method params
    | .notification method params => s.handleNotification method params
    | .response id outcome => s.noteReply id outcome
    | .invalid _ => s

end Server
end Mock
end CodeIntel
