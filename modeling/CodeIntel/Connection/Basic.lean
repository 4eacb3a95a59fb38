import CodeIntel.Frame.Reader
import CodeIntel.Message

/-!
# Connections

One connection carries any number of calls. Each call waits in a slot under its
number until a response with that number is dispatched, or the connection goes
away; then it takes its reply. Requests of the server are answered at once, its
notifications go to the handlers of their method. Once the connection is closed
nothing is written to it.
-/

namespace CodeIntel

abbrev Reply := Except ClientFault Json

structure Connection where
  /-- The next call. Calls are counted from one. -/
  nextCall : Nat := 1
  /-- The calls that wait, each with a slot under its number. -/
  pending : List Nat := []
  /-- The replies that calls have not taken yet. -/
  replies : List (Nat × Reply) := []
  closed : Bool := false
  /-- Whether the other end has stopped to take what we write. -/
  broken : Bool := false
  wire : List Message := []
  /-- The handlers of notifications: method and name of the handler. -/
  handlers : List (String × String) := []
  runs : List (String × Json) := []

namespace Connection

/-- The number under which a call waits. Numbers have 64 bits and wrap
around. -/
def number (call : Nat) : Nat :=
  call % (Numeral.max64 + 1)

/-! # Slots -/

/-- Tells a call that has lost its slot that it will not be answered. -/
def fail (c : Connection) (call : Nat) : Connection :=
  { c with replies := c.replies ++ [(call, .error .connectionClosed)] }

def removeSlots (c : Connection) (which : Nat → Bool) : List Nat × Connection :=
  (c.pending.filter which,
    { c with pending := c.pending.filter fun call => !which call })

/-- Removes the slots of some calls and fails these. -/
def discard (c : Connection) (which : Nat → Bool) : Connection :=
  let (lost, c) := c.removeSlots which
  lost.foldl fail c

/-- Gives a call the slot under its number. A call that had it before is
failed. -/
def enter (c : Connection) (call : Nat) : Connection :=
  let c := c.discard fun other => number other = number call
  { c with pending := call :: c.pending }

/-- Clears the slot under the number of a call that has ended or was given up,
and forgets the call. -/
def release (c : Connection) (call : Nat) : Connection :=
  let c := c.discard fun other => number other = number call
  { c with replies := c.replies.filter fun e => e.1 ≠ call }

/-- Gives the call that waits under a number its outcome. A response that no
call waits for is dropped. -/
def complete (c : Connection) (id : Nat) (outcome : Outcome) : Connection :=
  match c.pending.find? fun call => number call = id with
  | some call =>
    { c with
      pending := c.pending.filter (· ≠ call)
      replies := c.replies ++ [(call, outcome.mapError .server)] }
  | none => c

def reply? (c : Connection) (call : Nat) : Option Reply :=
  (c.replies.find? fun e => e.1 = call).map Prod.snd

/-! # Closing -/

def shut (c : Connection) : Connection :=
  { c with closed := true }

def drain (c : Connection) : List Nat × Connection :=
  c.removeSlots fun _ => true

/-- Marks the connection as gone and fails every call that waits, unless it is
closed. -/
def close (c : Connection) : Connection :=
  if c.closed then c
  else
    let (lost, c) := c.shut.drain
    lost.foldl fail c

def breakPipe (c : Connection) : Connection :=
  { c with broken := true }

def checkOpen (c : Connection) : Except ClientFault Unit :=
  if c.closed then .error .disconnected else .ok ()

/-! # Writing -/

def put? (c : Connection) (m : Message) : Option Connection :=
  if c.broken then none else some { c with wire := c.wire ++ [m] }

/-- Writes one message. A write that fails closes the connection. -/
def write (c : Connection) (m : Message) :
    Except ClientFault Unit × Connection :=
  match c.checkOpen with
  | .error f => (.error f, c)
  | .ok () =>
    match c.put? m with
    | some c => (.ok (), c)
    | none => (.error .disconnected, c.close)

def notify (c : Connection) (method : String) (params : Json) :
    Except ClientFault Unit × Connection :=
  c.write (.notification method params)

/-! # Calls -/

def allot (c : Connection) : Nat × Connection :=
  (c.nextCall, { c with nextCall := c.nextCall + 1 })

/-- Starts a call: it waits under its number once its request is written. -/
def startCall (c : Connection) (method : String) (params : Json) :
    Except ClientFault Nat × Connection :=
  match c.checkOpen with
  | .error f => (.error f, c)
  | .ok () =>
    let (call, c) := c.allot
    let c := c.enter call
    -- a close that began after the first check may not have seen the slot
    match c.checkOpen with
    | .error f => (.error f, c.release call)
    | .ok () =>
      match c.write (.request (number call) method params) with
      | (.ok (), c) => (.ok call, c)
      | (.error f, c) => (.error f, c.release call)

/-! # Dispatching -/

/-- What a server is answered, if we know its request: settings are all null,
registrations and progress are taken note of. -/
def answer? (method : String) (params : Json) : Option Json :=
  match method with
  | "workspace/configuration" =>
    some (.arr (List.replicate
      (((params.get "items").arr?).getD []).length .null))
  | "client/registerCapability" | "client/unregisterCapability"
  | "window/workDoneProgress/create" =>
    some .null
  | _ => none

def response (id : Json) (method : String) (params : Json) : Message :=
  match answer? method params with
  | some result => .success id result
  | none =>
    .failure id ⟨ClientFault.methodNotFoundCode,
      s!"method not supported by client: {method}", none⟩

/-- Registers a handler behind those that the method has. -/
def handle (c : Connection) (method name : String) : Connection :=
  { c with handlers := c.handlers ++ [(method, name)] }

def handlersOf (c : Connection) (method : String) : List String :=
  (c.handlers.filter fun h => h.1 = method).map Prod.snd

def runHandlers (c : Connection) (method : String) (params : Json) :
    Connection :=
  { c with runs := c.runs ++ (c.handlersOf method).map fun name =>
    (name, params) }

def dispatch (c : Connection) (frame : Json) : Connection :=
  match Incoming.classify frame with
  | .response id outcome => c.complete id outcome
  | .notification method params => c.runHandlers method params
  | .request id method params => (c.write (response id method params)).2
  | .invalid _ => c

/-- Dispatches what is read. Frames that are wrong in themselves are dropped;
the connection closes at the end. -/
def readFrames (c : Connection) (results : List Frame.ReadResult) :
    Connection :=
  (results.foldl (fun c r =>
    match r with
    | .frame value => c.dispatch value
    | _ => c) c).close

/-- Reads and dispatches a stream until its end or a fatal fault. -/
def readStream (c : Connection) (s : Frame.Stream) : Connection :=
  c.readFrames (Frame.readAll s)

end Connection
end CodeIntel
