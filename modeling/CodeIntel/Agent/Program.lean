import CodeIntel.Agent.Session

/-!
# The program

The command line is read and checked, the language server is started, and an
agent is served until it goes away. How that ends decides the exit code and what
is said about it.
-/

namespace CodeIntel

inductive ProgramEnd where
  | done
  | usage (f : UsageFault)
  | config (f : ProgramFault)
  | noServer (f : ClientFault)
  | noAgent (f : AgentFault)
deriving DecidableEq, Repr

namespace ProgramEnd

def exitCode : ProgramEnd → Nat
  | .done | .usage .displayHelp | .usage .displayVersion => 0
  | .usage _ => 2
  | .config _ | .noServer _ | .noAgent _ => 1

def causedBy (what cause : String) : List String :=
  [s!"Error: {what}", "Caused by:", s!"    {cause}"]

def lines : ProgramEnd → List String
  | .done | .usage _ => []
  | .config f => [s!"Error: {f.message}"]
  | .noServer f => causedBy "failed to start language server" f.message
  | .noAgent f => causedBy "failed to start MCP server" f.message

end ProgramEnd

namespace Program

variable {σ : Type}

/-- The configuration that the words behind the name of the program ask for. The
log level is checked before anything else. -/
def configure (disk : Disk) (words : List String) :
    Except ProgramEnd Config := do
  let line ← (CommandLine.parse words).mapError .usage
  let _ ← line.level.mapError .config
  (line.config disk.realPath).mapError .config

def openSession (disk : Disk) (config : Config)
    (process : Except String (Peer σ)) :
    Except ProgramEnd (AgentSession σ) :=
  match Client.open_ disk config process with
  | .ok c => .ok { client := c.settle }
  | .error f => .error (.noServer f)

structure Outcome (σ : Type) where
  sent : List Json
  ended : ProgramEnd
  client : Option (Client σ)

/-- Ends a program whose agent is not served any more: the language server is
told to end. -/
def conclude (sent : List Json) (served : Except AgentFault Unit)
    (c : Client σ) : Outcome σ :=
  match served with
  | .ok () => ⟨sent, .done, some c.close.2⟩
  | .error f => ⟨sent, .noAgent f, some c.close.2⟩

def run (disk : Disk) (config : Config) (process : Except String (Peer σ))
    (messages : List Json) :
    Outcome σ :=
  match openSession disk config process with
  | .error e => ⟨[], e, none⟩
  | .ok s =>
    let (sent, served, c) := s.serve messages
    conclude sent served c

end Program
end CodeIntel
