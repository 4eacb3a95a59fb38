import CodeIntel.Connection.Basic
import CodeIntel.Protocol.Request

/-!
# Calls side by side

Calls that run side by side on one connection under a clock. A call ends when
its reply has come, or else when its time is up.
-/

namespace CodeIntel

structure RunningCall where
  tag : String
  id : Nat
  /-- The time at which the call gives up, in milliseconds. -/
  deadline : Nat
  limit : Nat
  /-- The method whose answers are to be decoded, if the call is a typed one. -/
  typed : Option String
deriving DecidableEq, Repr

structure CallPool where
  connection : Connection := {}
  clock : Nat := 0
  running : List RunningCall := []
  ended : List (String × Reply) := []

namespace CallPool

def decodeReply (typed : Option String) (r : Reply) : Reply :=
  match typed.bind TypedMethod.ofName?, r with
  | some m, .ok v =>
    match m.result? v with
    | some w => .ok w
    | none => .error (.undecodable m.name "the answer has another shape")
  | _, r => r

def finish (p : CallPool) (tag : String) (r : Reply) : CallPool :=
  { p with ended := p.ended ++ [(tag, r)] }

def outcome? (p : CallPool) (call : RunningCall) : Option Reply :=
  match p.connection.reply? call.id with
  | some r => some (decodeReply call.typed r)
  | none =>
    if call.deadline ≤ p.clock then
      some (.error (.timeout (.ofMillis call.limit))) else none

def settleCall (p : CallPool) (call : RunningCall) : CallPool :=
  match p.outcome? call with
  | some r =>
    { p with connection := p.connection.release call.id }.finish call.tag r
  | none => { p with running := p.running ++ [call] }

def settle (p : CallPool) : CallPool :=
  p.running.foldl settleCall { p with running := [] }

/-- Starts a call that gives up after `limit` milliseconds. -/
def start (p : CallPool) (tag method : String) (params : Json) (limit : Nat)
    (typed : Option String) :
    CallPool :=
  match p.connection.startCall method params with
  | (.ok id, c) =>
    let call : RunningCall := ⟨tag, id, p.clock + limit, limit, typed⟩
    { p with connection := c, running := p.running ++ [call] }
  | (.error f, c) => { p with connection := c }.finish tag (.error f)

def abort (p : CallPool) (tag : String) : CallPool :=
  let (dropped, kept) := p.running.partition fun call => call.tag = tag
  { p with
    connection := dropped.foldl (fun c call => c.release call.id) p.connection
    running := kept }

def advance (p : CallPool) (ms : Nat) : CallPool :=
  { p with clock := p.clock + ms }

def onConnection (p : CallPool) (change : Connection → Connection) : CallPool :=
  { p with connection := change p.connection }

end CallPool
end CodeIntel
