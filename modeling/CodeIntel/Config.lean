import CodeIntel.CommandLine
import CodeIntel.Disk.Error
import CodeIntel.Disk.Path
import CodeIntel.Fault
import CodeIntel.Text.Blank

/-!
# Configuration

What the command line asks for, checked: the language server to run, the root of
the workspace, and how long to wait.
-/

namespace CodeIntel

structure Config where
  command : String
  args : List String
  root : FilePath
  initTimeoutMs : Nat
  requestTimeoutMs : Nat
  shutdownGraceMs : Nat
deriving DecidableEq, Repr

namespace Config

def defaultInitTimeoutMs : Nat := 30000

def defaultShutdownGraceMs : Nat := 2000

end Config

namespace CommandLine

def level (c : CommandLine) : Except ProgramFault LogLevel :=
  let name := Text.inSmallLetters c.logLevel
  match LogLevel.ofName? name with
  | some level => .ok level
  | none => .error (.config s!"invalid log level: {name}")

/-- What is logged: our own messages and those of the protocol library. -/
def logFilter (c : CommandLine) : Except ProgramFault String :=
  (level c).map fun l => s!"lsp_bridge={l.text},rmcp={l.text}"

def config (realPath : FilePath → Except DiskError FilePath) (c : CommandLine) :
    Except ProgramFault Config :=
  if (Text.trim c.server.toList).isEmpty then
    .error (.config "language server command is empty")
  else if c.timeoutSecs = 0 then
    .error (.config "request timeout must be at least one second")
  else
    match realPath (.ofString c.workspace) with
    | .error e =>
      .error (.config
        s!"failed to canonicalize workspace path {c.workspace}: {e.message}")
    | .ok root =>
      .ok {
        command := c.server
        args := c.serverArgs
        root := root
        initTimeoutMs := Config.defaultInitTimeoutMs
        requestTimeoutMs := c.timeoutSecs * 1000
        shutdownGraceMs := Config.defaultShutdownGraceMs }

end CommandLine
end CodeIntel
