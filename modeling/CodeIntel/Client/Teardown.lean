import CodeIntel.Client.Exchange

/-!
# The end of a client

Documents are closed, the server is asked to shut down and told to exit, and
then its process has to end. All of that must be done within the grace period,
or the process is killed. A client is closed once; whoever closes it again
learns the same outcome.
-/

namespace CodeIntel
namespace Client

variable {σ : Type}

def closeDocuments (c : Client σ) : Client σ :=
  { c with documents := c.documents.closeAll.2 }

/-- Asks the server to shut down; whether it agrees does not matter. -/
def askShutdown (deadline : Nat) (c : Client σ) : Client σ :=
  (c.callUntil deadline c.config.requestTimeoutMs "shutdown" .null).2

def awaitExit (deadline : Nat) (c : Client σ) : Client σ :=
  let c := c.onConnection fun connection => (connection.notify "exit" .null).2
  c.waitUntil (fun c => !c.peer.isRunning) deadline

/-- Ends the process in good order, if it ends before the deadline. A server
that does not answer in time is not told to exit. -/
def endGracefully (deadline : Nat) (c : Client σ) : Client σ :=
  let c := c.closeDocuments.askShutdown deadline
  if c.clock < deadline then c.awaitExit deadline else c

def reap (c : Client σ) : CloseOutcome × Client σ :=
  match c.peer.ended with
  | some code => (.exited code, c)
  | none => (.killed, { c with peer := c.peer.kill })

def teardown (c : Client σ) : CloseOutcome × Client σ :=
  let (outcome, c) :=
    (c.endGracefully (c.clock + c.config.shutdownGraceMs)).reap
  (outcome, c.onConnection Connection.close)

/-! # Closing -/

/-- Begins the end of the client, unless somebody has. -/
def beginClose? (c : Client σ) : Option (Client σ) :=
  c.state.beginClose.map fun state => { c with state := state }

def markClosed (c : Client σ) : Client σ :=
  { c with state := .closed }

def announce (outcome : CloseOutcome) (c : Client σ) : Client σ :=
  { c with outcome := some outcome }

/-- What whoever closes the client is told in the end. -/
def closeOutcome (c : Client σ) : CloseOutcome :=
  c.outcome.getD (.exited none)

/-- Closes the client. It is torn down only by the first to close it. -/
def close (c : Client σ) : CloseOutcome × Client σ :=
  let c := match c.beginClose? with
    | some c =>
      let (outcome, c) := c.teardown
      c.markClosed.announce outcome
    | none => c
  (c.closeOutcome, c)

end Client
end CodeIntel
