import CodeIntel.Frame.Reader
import CodeIntel.Peer.Basic

/-!
# Processes that follow a plan

A process may act without regard to what it is told: its plan is divided into
stages, and each stage begins when enough messages have arrived and the stage
before it is over.
-/

namespace CodeIntel

structure PlanStage where
  /-- The number of messages that must have arrived. -/
  awaits : Nat
  /-- What is done, with the time since the beginning of the stage. -/
  acts : Agenda
  duration : Nat
deriving DecidableEq, Repr

structure Plan where
  stages : List PlanStage
  received : Nat := 0
  /-- The time at which the last stage that has begun is over. -/
  busyUntil : Nat := 0
deriving DecidableEq, Repr

namespace Plan

def schedule (start : Nat) (s : PlanStage) : Agenda :=
  s.acts.map fun (delay, act) => (start + delay, act)

def beginFrom (now received busyUntil : Nat) : List PlanStage → Agenda × Plan
  | [] => ([], ⟨[], received, busyUntil⟩)
  | s :: rest =>
    if s.awaits ≤ received then
      let start := max now busyUntil
      let (acts, plan) := beginFrom now received (start + s.duration) rest
      (schedule start s ++ acts, plan)
    else ([], ⟨s :: rest, received, busyUntil⟩)

def react (now : Nat) (_ : Json) (p : Plan) : Agenda × Plan :=
  beginFrom now (p.received + 1) p.busyUntil p.stages

def peer (stages : List PlanStage) : Peer Plan :=
  let (acts, plan) := beginFrom 0 0 0 stages
  { state := plan, react := react, agenda := acts }

/-! # Recordings -/

/-- The frames of an output. What is no frame is not seen at the other end. -/
def framesOf (results : List Frame.ReadResult) : List Json :=
  results.filterMap fun r =>
    match r with
    | .frame v => some v
    | _ => none

/-- A process that writes a recorded output when the first message arrives. Then
it exits, or it stays silent. -/
def recorded (output : List UInt8) (exit : Option Int) : Peer Plan :=
  let frames := framesOf (Frame.readAll (.ofBytes output))
  let acts :=
    frames.map PeerAct.send ++
      (exit.map fun code => PeerAct.exit (some code)).toList
  peer [⟨1, acts.map (0, ·), 0⟩]

end Plan
end CodeIntel
