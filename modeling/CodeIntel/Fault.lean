import CodeIntel.Frame.Problem
import CodeIntel.Json.Basic
import CodeIntel.Text.Duration

/-!
# Faults

Faults by how far they reach: those of the byte streams between us and the
language server, those of one exchange with it, those of a tool, and those of
the whole program. Each has one text.
-/

namespace CodeIntel

/-! # Transport -/

inductive TransportFault where
  | spawnFailed (command reason : String)
  /-- The other end is gone; nothing more can be exchanged. -/
  | disconnected
  /-- The stream ended inside a frame. -/
  | cutShort
  | malformedFrame (problem : Frame.Problem)
  | io (reason : String)
deriving DecidableEq, Repr

namespace TransportFault

def message : TransportFault → String
  | .spawnFailed command reason =>
    s!"failed to spawn language server '{command}': {reason}"
  | .disconnected => "language server disconnected"
  | .cutShort => "stream closed in the middle of a frame"
  | .malformedFrame problem => "malformed frame: " ++ problem.message
  | .io reason => "transport I/O error: " ++ reason

/-- A malformed frame concerns one message; after any other fault the stream
cannot be trusted. -/
def isFatal : TransportFault → Bool
  | .malformedFrame _ => false
  | _ => true

end TransportFault

/-! # Exchanges with the language server -/

structure ResponseError where
  code : Int
  message : String
  data : Option Json
deriving DecidableEq, Repr

inductive ClientFault where
  | transport (fault : TransportFault)
  | server (error : ResponseError)
  /-- The connection went away while an answer was awaited. -/
  | connectionClosed
  | timeout (limit : Duration)
  | initializationFailed (reason : String)
  | invalidPosition (line column : Nat)
  | documentNotFound (reason : String)
  | documentClosed (path : String)
  | undecodable (method reason : String)
deriving DecidableEq, Repr

namespace ClientFault

def methodNotFoundCode : Int := -32601

def message : ClientFault → String
  | .transport fault => fault.message
  | .server error =>
    s!"language server error: {error.message} (code: {error.code})"
  | .connectionClosed => "connection closed"
  | .timeout limit => "language server request timed out after " ++ limit.text
  | .initializationFailed reason =>
    "language server initialization failed: " ++ reason
  | .invalidPosition line column =>
    s!"invalid position: line {line}, column {column} (both are 1-indexed)"
  | .documentNotFound reason => "document not found: " ++ reason
  | .documentClosed path => "document was closed: " ++ path
  | .undecodable method reason =>
    s!"failed to decode language server response for {method}: {reason}"

def isMethodNotFound : ClientFault → Bool
  | .server error => error.code = methodNotFoundCode
  | _ => false

/-- The fault of every write and call after the connection is gone. -/
def disconnected : ClientFault :=
  .transport .disconnected

end ClientFault

/-! # Tools -/

inductive ToolFault where
  | invalidArguments (reason : String)
  | unsupported (feature : String)
  | file (path reason : String)
  | edit (reason : String)
  | client (fault : ClientFault)
deriving DecidableEq, Repr

namespace ToolFault

def message : ToolFault → String
  | .invalidArguments reason => "invalid tool arguments: " ++ reason
  | .unsupported feature =>
    feature ++ " is not supported by this language server"
  | .file path reason => s!"file error for {path}: {reason}"
  | .edit reason => "cannot apply workspace edit: " ++ reason
  | .client fault => "LSP error: " ++ fault.message

end ToolFault

structure AgentError where
  code : Int
  message : String
deriving DecidableEq, Repr

namespace AgentError

def invalidRequest : Int := -32600

def invalidParams : Int := -32602

def internal : Int := -32603

def ofFault (fault : ToolFault) : AgentError :=
  let code := match fault with
    | .invalidArguments _ => invalidParams
    | .client (.invalidPosition _ _) => invalidParams
    | .unsupported _ => invalidRequest
    | _ => internal
  ⟨code, fault.message⟩

end AgentError

/-! # The program -/

inductive ProgramFault where
  | client (fault : ClientFault)
  | transport (fault : TransportFault)
  | tool (fault : ToolFault)
  | config (reason : String)
  | io (reason : String)
deriving DecidableEq, Repr

namespace ProgramFault

def message : ProgramFault → String
  | .client fault => "LSP error: " ++ fault.message
  | .transport fault => "transport error: " ++ fault.message
  | .tool fault => "tool error: " ++ fault.message
  | .config reason => "configuration error: " ++ reason
  | .io reason => "IO error: " ++ reason

end ProgramFault
end CodeIntel
