import CodeIntel.Agent.Greeting
import CodeIntel.Agent.Identity
import CodeIntel.Agent.Message
import CodeIntel.Client.Start
import CodeIntel.Tool.Listing
import CodeIntel.Tool.Perform

/-!
# Serving an agent

An agent greets us with its first request and confirms our answer; from then on
its requests are served one after another.
-/

namespace CodeIntel

inductive AgentPhase where
  | expectingGreeting
  | expectingConfirmation
  | serving
deriving DecidableEq, Repr

inductive AgentFault where
  /-- It went away before its greeting or its confirmation. -/
  | gone (phase : AgentPhase)
  /-- It sent another message first. -/
  | unexpected (phase : AgentPhase)
deriving DecidableEq, Repr

namespace AgentFault

def message : AgentFault → String
  | .gone .expectingGreeting => "connection closed: initialized request"
  | .gone _ => "connection closed: initialize notification"
  | .unexpected .expectingGreeting =>
    "expect initialized request, but received another message"
  | .unexpected _ =>
    "expect initialized notification, but received another message"

end AgentFault

structure AgentSession (σ : Type) where
  client : Client σ
  phase : AgentPhase := .expectingGreeting

namespace AgentSession

variable {σ : Type}

/-! # Greetings -/

def greeting (version : String) (c : Capabilities) : Json :=
  Json.ofMembers [
    ("protocolVersion", .str version),
    ("capabilities", Json.ofMembers [("tools", Json.empty)]),
    ("serverInfo", Json.ofMembers [("name", .str ProductName.own.name),
      ("version", .str ProductName.own.version)]),
    ("instructions", .str (Agent.instructions c))]

/-! # Tools -/

def textResult (text : String) : Json :=
  Json.ofMembers [
    ("content", .arr
      [Json.ofMembers [("type", .str "text"), ("text", .str text)]]),
    ("isError", .bool false)]

def toolList : Json :=
  let sorted :=
    Sorting.sortBy (fun a b : ToolName => !(b.text < a.text)) ToolName.all
  Json.ofMembers [("tools", .ofList ToolName.listing sorted)]

/-- The name of a tool and the arguments for it. Arguments that are missing are
none. -/
def toolRequest? (params : Json) : Option (String × Json) := do
  let name ← params.field? Json.str? "name"
  match params.get "arguments" with
  | .null => some (name, Json.empty)
  | .obj members => some (name, .obj members)
  | _ => none

def callTool (name : String) (arguments : Json) (c : Client σ) :
    AgentReply × Client σ :=
  match ToolName.ofText? name with
  | none => (.error .unknownTool, c)
  | some tool =>
    match ToolCall.decode? arguments tool with
    | none => (.error .badArguments, c)
    | some call =>
      match call.perform Tool.diagnosticsWait c with
      | (.ok text, c) => (.ok (textResult text), c)
      | (.error f, c) => (.error (.ofFault f), c)

/-! # Requests -/

def asksCompletion (params : Json) : Bool :=
  let question? := do
    let subject ← params.get? "ref"
    match subject.get "type" with
    | .str "ref/prompt" =>
      let _ ← subject.field? Json.str? "name"
      let _ ← subject.optional? Json.str? "title"
    | .str "ref/resource" =>
      let _ ← subject.field? Json.str? "uri"
    | _ => none
    let argument ← params.get? "argument"
    let _ ← argument.field? Json.str? "name"
    let _ ← argument.field? Json.str? "value"
    let _ ← params.optional? knownArguments? "context"
  question?.isSome
where
  knownArguments? (v : Json) : Option Unit := do
    v.object?
    let _ ← v.optional? (AgentGreeting.allMembers? Json.str?) "arguments"

/-- The answers to requests that need no language server. There are no prompts
and no resources, and so nothing that completes them. -/
def plainAnswer? (c : Client σ) (method : String) (params : Json) :
    Option Json :=
  match method with
  | "ping" => some Json.empty
  | "initialize" => (AgentGreeting.version? params).map fun _ =>
    greeting AgentGreeting.latestVersion c.capabilities
  | "tools/list" => some toolList
  | "prompts/list" => some (Json.ofMembers [("prompts", .arr [])])
  | "resources/list" => some (Json.ofMembers [("resources", .arr [])])
  | "resources/templates/list" =>
    some (Json.ofMembers [("resourceTemplates", .arr [])])
  | "completion/complete" =>
    if asksCompletion params then
      some (Json.ofMembers
        [("completion", Json.ofMembers [("values", .arr [])])])
    else none
  | _ => none

def answer (method : String) (params : Json) (c : Client σ) :
    AgentReply × Client σ :=
  match plainAnswer? c method params with
  | some result => (.ok result, c)
  | none =>
    match method, toolRequest? params with
    | "tools/call", some (name, arguments) => callTool name arguments c
    | _, _ => (.error (.unknownMethod method), c)

def greet (s : AgentSession σ) (params : Json) :
    Except AgentFault (AgentReply × AgentSession σ) :=
  match AgentGreeting.version? params with
  | some version =>
    .ok (.ok (greeting (AgentGreeting.commonVersion version)
      s.client.capabilities), { s with phase := .expectingConfirmation })
  | none => .error (.unexpected .expectingGreeting)

/-- Handles one message; the result is what is sent back. -/
def receive (s : AgentSession σ) (m : AgentMessage) :
    Except AgentFault (Option Json × AgentSession σ) :=
  match s.phase, m with
  | .expectingGreeting, .request id "initialize" params =>
    (s.greet params).map fun (r, s) => (some (r.toJson id), s)
  | .expectingGreeting, _ => .error (.unexpected .expectingGreeting)
  | .expectingConfirmation, .notification "notifications/initialized" _ =>
    .ok (none, { s with phase := .serving })
  | .expectingConfirmation, _ => .error (.unexpected .expectingConfirmation)
  | .serving, .request id method params =>
    let (r, client) := answer method params s.client
    .ok (some (r.toJson id), { s with client := client.settle })
  | .serving, _ => .ok (none, s)

def finish (s : AgentSession σ) : Except AgentFault Unit :=
  match s.phase with
  | .serving => .ok ()
  | phase => .error (.gone phase)

inductive Progress (σ : Type) where
  | goesOn (sent : Option Json) (s : AgentSession σ)
  | ends (result : Except AgentFault Unit)

/-- Takes up one message. A session ends with one that cannot be read, unless it
is none of our business. -/
def step (s : AgentSession σ) (v : Json) : Progress σ :=
  match AgentMessage.decode? v with
  | none => if AgentMessage.isForeign v then .goesOn none s else .ends s.finish
  | some m =>
    match s.receive m with
    | .error f => .ends (.error f)
    | .ok (sent, s) => .goesOn sent s

/-- Serves messages until they or the session end. The result is all that was
sent back. -/
def serve (s : AgentSession σ) :
    List Json → List Json × Except AgentFault Unit × Client σ
  | [] => ([], s.finish, s.client)
  | v :: rest =>
    match s.step v with
    | .ends result => ([], result, s.client)
    | .goesOn sent s =>
      let (more, result) := s.serve rest
      (sent.toList ++ more, result)

end AgentSession
end CodeIntel
