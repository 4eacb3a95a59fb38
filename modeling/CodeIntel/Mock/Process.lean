import CodeIntel.Disk.Tree
import CodeIntel.Frame.Reader
import CodeIntel.Mock.Server
import CodeIntel.Peer.Basic

/-!
# The scripted server as a process

How the server is started from its arguments, how it works off a whole input,
and how it acts as the process at the other end of a client.
-/

namespace CodeIntel
namespace Mock

namespace Server

/-! # Starting -/

def usageCode : UsageFault → Nat
  | .displayHelp | .displayVersion => 0
  | _ => 2

def loadFixture (disk : Disk) : Option String → Option Fixture
  | none => some {}
  | some path => (disk.readText (.ofString path)).toOption.bind Fixture.parse?

def start (disk : Disk) (words : List String) : Except Nat Server :=
  match Behaviour.parse words with
  | .error f => .error (usageCode f)
  | .ok behaviour =>
    match loadFixture disk behaviour.fixture with
    | none => .error 1
    | some fixture => .ok { behaviour := behaviour, fixture := fixture }

/-! # Running -/

def receiveAll (s : Server) (results : List Frame.ReadResult) : Server :=
  results.foldl (fun s r =>
    match r with
    | .frame v => s.receive v
    | _ => s) s

def run (s : Server) (input : Frame.Stream) : Server :=
  let s := s.receiveAll (Frame.readAll input)
  { s with exitCode := some (s.exitCode.getD 0) }

/-- The text of the journal; there is none before its first entry. -/
def journalText? (s : Server) : Option String :=
  match s.behaviour.journal, s.journal with
  | none, _ | _, [] => none
  | some _, methods => some (String.join (methods.map fun m => m ++ "\n"))

end Server

/-! # Acting as a process -/

structure Process where
  server : Server
  /-- The time until which it is busy. -/
  busyUntil : Nat := 0

namespace Process

/-- How long the server waits before it handles a frame: it takes its time with
the requests that it answers. -/
def delay (s : Server) (frame : Json) : Nat :=
  match Incoming.classify frame with
  | .request _ method _ =>
    if s.behaviour.silentOn.contains method then 0 else s.behaviour.delayMs
  | _ => 0

def acts (before after : Server) : List PeerAct :=
  (after.written.drop before.written.length).map (fun m => .send m.toJson) ++
    match after.exitCode with
    | some code => [.exit (some code)]
    | none => []

def react (now : Nat) (frame : Json) (p : Process) : Agenda × Process :=
  if p.server.exitCode.isSome then ([], p)
  else
    let time := max now p.busyUntil + delay p.server frame
    let server := p.server.receive frame
    ((acts p.server server).map (time, ·), ⟨server, time⟩)

end Process

/-- The process of a server that was started with the given arguments. One that
could not start ends at once. -/
def peer (disk : Disk) (words : List String) : Peer Process :=
  match Server.start disk words with
  | .ok server => { state := ⟨server, 0⟩, react := Process.react }
  | .error code =>
    { state := ⟨{ behaviour := {}, fixture := {} }, 0⟩
      react := Process.react
      agenda := [(0, .exit (some (code : Int)))] }

end Mock
end CodeIntel
