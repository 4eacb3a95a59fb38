import CodeIntel.Options
import CodeIntel.Text.Lowercase
import CodeIntel.Text.Numeral

/-!
# The command line

The command of the language server must be given, everything else has a value of
its own. Only the arguments of the server may be given more than once.
-/

namespace CodeIntel

inductive LogLevel where
  | trace
  | debug
  | info
  | warn
  | error
deriving DecidableEq, Repr

namespace LogLevel

def text : LogLevel → String
  | .trace => "TRACE"
  | .debug => "DEBUG"
  | .info => "INFO"
  | .warn => "WARN"
  | .error => "ERROR"

def ofName? : String → Option LogLevel
  | "trace" => some .trace
  | "debug" => some .debug
  | "info" => some .info
  | "warn" => some .warn
  | "error" => some .error
  | _ => none

end LogLevel

structure CommandLine where
  workspace : String
  server : String
  serverArgs : List String
  logLevel : String
  timeoutSecs : Nat
deriving DecidableEq, Repr

namespace CommandLine

/-! # Options -/

inductive Key where
  | workspace
  | server
  | serverArg
  | logLevel
  | timeout
deriving DecidableEq, Repr

def longSwitch? : String → Option (OptionSwitch Key)
  | "workspace" => some (.key .workspace)
  | "language-server" => some (.key .server)
  | "language-server-args" => some (.key .serverArg)
  | "log-level" => some (.key .logLevel)
  | "request-timeout-secs" => some (.key .timeout)
  | "help" => some .help
  | "version" => some .version
  | _ => none

def shortSwitch? : Char → Option (OptionSwitch Key)
  | 'w' => some (.key .workspace)
  | 'l' => some (.key .server)
  | 'h' => some .help
  | 'V' => some .version
  | _ => none

def check : Key → String → Except UsageFault Unit
  | .workspace, v => if v.isEmpty then .error .invalidValue else .ok ()
  | .timeout, v =>
    match Numeral.read Numeral.max64 v.toList with
    | .ok _ => .ok ()
    | .error _ => .error .valueValidation
  | _, _ => .ok ()

def options : OptionTable Key where
  long? := longSwitch?
  short? := shortSwitch?
  repeats k := k = .serverArg
  takesDash k := k = .serverArg
  check := check

/-! # Reading -/

def ofReading (s : OptionReading Key) : Except UsageFault CommandLine :=
  match s.value? .server with
  | none => .error .missingRequiredArgument
  | some server =>
    let timeout := (s.value? .timeout).bind fun v =>
      (Numeral.read Numeral.max64 v.toList).toOption
    .ok {
      workspace := (s.value? .workspace).getD "."
      server := server
      serverArgs := s.values .serverArg
      logLevel := (s.value? .logLevel).getD "info"
      timeoutSecs := timeout.getD 10 }

def parse (words : List String) : Except UsageFault CommandLine := do
  let s ← OptionReading.readAll options {} words
  ofReading s

end CommandLine
end CodeIntel
