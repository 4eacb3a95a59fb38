import CodeIntel.Client.Basic
import CodeIntel.Protocol.Request

/-!
# Calls and notifications of a client
-/

namespace CodeIntel
namespace Client

variable {σ : Type}

def notify (method : String) (params : Json) : ClientM σ Unit :=
  onDocuments (·.notify method params)

def takeReply (id limit : Nat) (c : Client σ) : Reply × Client σ :=
  let reply :=
    (c.connection.reply? id).getD (.error (.timeout (.ofMillis limit)))
  (reply, c.onConnection (·.release id))

/-- Calls a method and waits up to `limit` milliseconds for the answer, but not
beyond `deadline`: then the call is given up. -/
def callUntil (deadline limit : Nat) (method : String) (params : Json)
    (c : Client σ) :
    Reply × Client σ :=
  match c.connection.startCall method params with
  | (.error f, connection) => (.error f, c.onConnection fun _ => connection)
  | (.ok id, connection) =>
    let c := c.onConnection fun _ => connection
    let answered (c : Client σ) := (c.connection.reply? id).isSome
    (c.waitUntil answered (min deadline (c.clock + limit))).takeReply id limit

def callWithin (limit : Nat) (method : String) (params : Json) :
    ClientM σ Json := fun c =>
  c.callUntil (c.clock + limit) limit method params

def call (method : String) (params : Json) : ClientM σ Json := fun c =>
  callWithin c.config.requestTimeoutMs method params c

def request (r : Request α) (params : Json) : ClientM σ α := do
  let answer ← call r.method params
  match r.decode? answer with
  | some a => pure a
  | none => throw (.undecodable r.method "the answer has another shape")

def awaitReport (uri : Url) (limit : Nat) : ClientM σ Unit := fun c =>
  (.ok (), c.waitUntil (·.store.hasReport uri) (c.clock + limit))

end Client
end CodeIntel
