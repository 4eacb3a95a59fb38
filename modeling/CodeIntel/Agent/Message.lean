import CodeIntel.Fault
import CodeIntel.Json.Fields

/-!
# Messages of an agent

What an agent sends, and what it is answered.
-/

namespace CodeIntel

inductive AgentMessage where
  | request (id : Json) (method : String) (params : Json)
  | notification (method : String) (params : Json)
  /-- An answer to us, who ask nothing. -/
  | answer
deriving DecidableEq, Repr

namespace AgentMessage

/-- The id of a request: an integer of 64 bits or a text. -/
def id? : Json → Option Json
  | .str s => some (.str s)
  | v => v.i64?.map .int

/-- Whether a message has parameters that can be read: none at all, or an
object. What they tell about the message itself is an object, too. -/
def hasReadableParams (v : Json) : Bool :=
  match v.get "params" with
  | .null => true
  | params => params.isObject && (params.optional? Json.object? "_meta").isSome

def version : Json := .str "2.0"

def request? (v : Json) : Option AgentMessage := do
  let id ← v.field? id? "id"
  let method ← v.field? Json.str? "method"
  if hasReadableParams v || method = "ping" then
    some (.request id method (v.get "params")) else none

/-- The notifications whose parameters nobody looks at. -/
def bareNotifications : List String :=
  ["notifications/initialized", "notifications/roots/list_changed"]

def notification? (v : Json) : Option AgentMessage := do
  let method ← v.field? Json.str? "method"
  if hasReadableParams v || bareNotifications.contains method then
    some (.notification method (v.get "params"))
  else none

def failure? (v : Json) : Option Unit := do
  let _ ← v.field? Json.i32? "code"
  let _ ← v.field? Json.str? "message"

def answer? (v : Json) : Option AgentMessage := do
  let _ ← v.field? id? "id"
  if (v.get? "result").isSome || (v.field? failure? "error").isSome then
    some .answer else none

/-- An answer that is written as the list of its version, its id and its
result. -/
def listedAnswer? : Json → Option AgentMessage
  | .arr [v, id, _] =>
    if v = version then (id? id).map fun _ => .answer else none
  | _ => none

/-- Reads a message. One with a method that is neither a request nor an answer
is a notification. -/
def decode? (v : Json) : Option AgentMessage :=
  if v.get "jsonrpc" = version then
    Json.either? request? (Json.either? answer? notification?) v
  else listedAnswer? v

def knownNotifications : List String :=
  ["notifications/cancelled", "notifications/initialized",
    "notifications/message",
   "notifications/progress", "notifications/prompts/list_changed",
   "notifications/resources/list_changed", "notifications/resources/updated",
   "notifications/roots/list_changed", "notifications/tools/list_changed"]

/-- Whether a message that cannot be read is none of our business: a
notification that we do not know. -/
def isForeign (v : Json) : Bool :=
  match v.field? Json.str? "method" with
  | some method =>
    ((v.get? "id").isNone ||
      "notifications/".toList.isPrefixOf method.toList) &&
      !knownNotifications.contains method
  | none => false

end AgentMessage

abbrev AgentReply := Except AgentError Json

namespace AgentReply

def toJson (id : Json) (r : AgentReply) : Json :=
  let outcome := match r with
    | .ok result => ("result", result)
    | .error e =>
      ("error", Json.ofMembers [("code", .int e.code),
        ("message", .str e.message)])
  Json.ofMembers [("jsonrpc", AgentMessage.version), ("id", id), outcome]

end AgentReply

namespace AgentError

def methodNotFound : Int := -32601

def unknownMethod (method : String) : AgentError :=
  ⟨methodNotFound, method⟩

def unknownTool : AgentError :=
  ⟨invalidParams, "tool not found"⟩

def badArguments : AgentError :=
  ⟨invalidParams,
    "failed to deserialize parameters: the arguments have another shape"⟩

end AgentError
end CodeIntel
