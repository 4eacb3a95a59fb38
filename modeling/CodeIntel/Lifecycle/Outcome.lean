/-!
# How a server ends
-/

namespace CodeIntel

inductive CloseOutcome where
  /-- It ended by itself in time, with an exit code unless a signal ended it. -/
  | exited (code : Option Int)
  | killed
  | killFailed (reason : String)
deriving DecidableEq, Repr

namespace CloseOutcome

def warning? : CloseOutcome → Option String
  | .exited _ => none
  | .killed =>
    some "language server did not exit within the grace period and was killed"
  | .killFailed reason => some s!"failed to kill language server: {reason}"

def wasForced : CloseOutcome → Bool
  | .exited _ => false
  | _ => true

end CloseOutcome

inductive LifecycleState where
  | starting
  | ready
  | shuttingDown
  | closed
deriving DecidableEq, Repr

namespace LifecycleState

def name : LifecycleState → String
  | .starting => "Starting"
  | .ready => "Ready"
  | .shuttingDown => "ShuttingDown"
  | .closed => "Closed"

def markReady : LifecycleState → Option LifecycleState
  | .starting => some .ready
  | _ => none

def beginClose : LifecycleState → Option LifecycleState
  | .starting | .ready => some .shuttingDown
  | .shuttingDown | .closed => none

end LifecycleState
end CodeIntel
