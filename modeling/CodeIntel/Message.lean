import CodeIntel.Fault
import CodeIntel.Json.Fields
import CodeIntel.Json.Printer
import CodeIntel.Text.Numeral

/-!
# Messages

The messages that the two ends of a connection exchange, how ours are written,
and what a frame that arrives turns out to be.
-/

namespace CodeIntel

namespace ResponseError

def toJson (e : ResponseError) : Json :=
  Json.ofOptions [("code", some (.int e.code)),
    ("message", some (.str e.message)), ("data", e.data)]

def decode? (v : Json) : Option ResponseError := do
  let v ← v.recordWith? ["code", "message"] ["data"]
  let code ← v.field? Json.i64? "code"
  let message ← v.field? Json.str? "message"
  let data ← v.optional? Json.any? "data"
  some ⟨code, message, data⟩

end ResponseError

/-! # Outgoing messages -/

inductive Message where
  | request (id : Nat) (method : String) (params : Json)
  | notification (method : String) (params : Json)
  | success (id : Json) (result : Json)
  | failure (id : Json) (error : ResponseError)
  /-- A value that stands for itself. -/
  | value (v : Json)
deriving DecidableEq, Repr

namespace Message

def members : Message → List (String × Json)
  | .request id method params =>
    [("jsonrpc", .str "2.0"), ("id", .ofNat id), ("method", .str method)] ++
      (if params.isNull then [] else [("params", params)])
  | .notification method params =>
    [("jsonrpc", .str "2.0"), ("method", .str method)] ++
      (if params.isNull then [] else [("params", params)])
  | .success id result =>
    [("jsonrpc", .str "2.0"), ("id", id), ("result", result)]
  | .failure id error =>
    [("jsonrpc", .str "2.0"), ("id", id), ("error", error.toJson)]
  | .value _ => []

def toJson : Message → Json
  | .value v => v
  | m => Json.ofMembers m.members

/-- The text of a message. Its own members keep their order. -/
def render : Message → String
  | .value v => v.render
  | m => (Json.obj m.members).render

def frame (m : Message) : List UInt8 :=
  let body := Utf8.encode m.render
  Utf8.encode s!"Content-Length: {body.length}\x0d\n\x0d\n" ++ body

end Message

/-! # Incoming messages -/

abbrev Outcome := Except ResponseError Json

inductive Incoming where
  | response (id : Nat) (outcome : Outcome)
  | request (id : Json) (method : String) (params : Json)
  | notification (method : String) (params : Json)
  | invalid (reason : String)

namespace Incoming

/-- Our ids are numbers, but some servers send them back as texts. -/
def responseId? : Json → Option Nat
  | .int i => if 0 ≤ i then some i.toNat else none
  | .str s => (Numeral.read Numeral.max64 s.toList).toOption
  | _ => none

def outcome? (frame : Json) : Option Outcome :=
  match frame.get "error" with
  | .null => some (.ok (frame.get "result"))
  | error => (ResponseError.decode? error).map .error

/-- Sorts a frame by its members: one with an id and a method is a request, one
with a method alone a notification, one with an id alone a response. -/
def classify (frame : Json) : Incoming :=
  if frame.isObject then
    let method := (frame.get? "method").bind Json.str?
    let params := frame.get "params"
    match frame.get "id", method with
    | .null, some method => .notification method params
    | .null, none => .invalid "frame has neither id nor method"
    | id, some method => .request id method params
    | id, none =>
      match responseId? id with
      | none => .invalid s!"response id {id.render} was not issued by us"
      | some n =>
        match outcome? frame with
        | some outcome => .response n outcome
        | none => .invalid "malformed error object: code or message missing"
  else .invalid ("frame is not an object: " ++ frame.render)

end Incoming
end CodeIntel
