import CodeIntel.Capabilities
import CodeIntel.Config
import CodeIntel.Diagnostics.Store
import CodeIntel.Documents.Basic
import CodeIntel.Lifecycle.Outcome
import CodeIntel.Peer.Basic

/-!
# Clients

A client holds the connection to one server process, the documents it has told
the server about and the diagnostics it was told. Messages that were written
reach the process when the client settles; time passes only while the client
waits.
-/

namespace CodeIntel

structure Client (σ : Type) where
  config : Config
  /-- The real path of the workspace. -/
  root : FilePath
  disk : Disk
  peer : Peer σ
  documents : Documents := {}
  store : DiagnosticsStore := []
  capabilities : Capabilities := .unknown
  state : LifecycleState := .starting
  /-- How the server ended, once the client is closed. -/
  outcome : Option CloseOutcome := none
  /-- The time in milliseconds. -/
  clock : Nat := 0
  /-- How many of the messages written have reached the process. -/
  delivered : Nat := 0

/-- A step of a client that may fail. What it did until then stays done. -/
abbrev ClientM (σ : Type) := ExceptT ClientFault (StateM (Client σ))

namespace Client

variable {σ : Type}

def connection (c : Client σ) : Connection :=
  c.documents.connection

def onConnection (c : Client σ) (change : Connection → Connection) : Client σ :=
  { c with documents := { c.documents with connection := change c.connection } }

def isConnected (c : Client σ) : Bool :=
  !c.connection.closed

def isAlive (c : Client σ) : Bool :=
  c.state = .ready && c.isConnected

/-! # Settling -/

def dispatch (frame : Json) (c : Client σ) : Client σ :=
  let c := match Incoming.classify frame with
    | .notification method params =>
      { c with store := c.store.receive method params }
    | _ => c
  c.onConnection (·.dispatch frame)

/-- What an act of the process means for the client. After the connection is
closed nothing is read. -/
def perform (act : PeerAct) (c : Client σ) : Client σ :=
  match act with
  | .send frame => if c.isConnected then c.dispatch frame else c
  | .hangUp => c.onConnection Connection.close
  | .exit code =>
    { c.onConnection Connection.close with peer := c.peer.exit code }

/-- Performs the acts that are due; `fuel` bounds their number. -/
def performDue : Nat → Client σ → Client σ
  | 0, c => c
  | fuel + 1, c =>
    match c.peer.due? c.clock with
    | some (act, peer) => performDue fuel ({ c with peer := peer }.perform act)
    | none => c

def deliver (c : Client σ) : Client σ :=
  let wire := c.connection.wire
  let peer :=
    (wire.drop c.delivered).foldl (fun p m => p.receive c.clock m.toJson) c.peer
  { c with peer := peer, delivered := wire.length }

/-- Delivers messages and performs what they lead to, until nothing is left to
deliver. A reply of ours may lead to another message, so this takes some
rounds. -/
def settleWith : Nat → Client σ → Client σ
  | 0, c => c
  | rounds + 1, c =>
    let c := c.deliver
    let c := c.performDue c.peer.agenda.length
    if c.delivered = c.connection.wire.length then c else settleWith rounds c

def maxRounds : Nat := 1000

def settle (c : Client σ) : Client σ :=
  c.settleWith maxRounds

/-! # Waiting -/

def waitWith (done : Client σ → Bool) (deadline : Nat) :
    Nat → Client σ → Client σ
  | 0, c => c
  | fuel + 1, c =>
    let c := c.settle
    if done c then c
    else
      match c.peer.nextTime? with
      | some time =>
        if time ≤ deadline then
          waitWith done deadline fuel { c with clock := max c.clock time }
        else { c with clock := max c.clock deadline }
      | none => { c with clock := max c.clock deadline }

/-- Waits until something holds, or until the deadline. Every round but the last
takes an act from the agenda. -/
def waitUntil (done : Client σ → Bool) (deadline : Nat) (c : Client σ) :
    Client σ :=
  let c := c.settle
  c.waitWith done deadline (c.peer.agenda.length + maxRounds)

/-! # Steps -/

def onDocuments (op : Documents → Except ClientFault α × Documents) :
    ClientM σ α := fun c =>
  let (r, documents) := op c.documents
  (r, { c with documents := documents })

def onFiles (op : Disk → Documents → Except ClientFault α × Documents) :
    ClientM σ α := fun c =>
  onDocuments (op c.disk) c

end Client
end CodeIntel
