import CodeIntel.Json.Basic

/-!
# The process at the other end

A process is known by what it does: it sends frames, ends its output, exits.
What is due stands on its agenda with the time at which it happens; a message
that arrives may put more there. Times are in milliseconds.
-/

namespace CodeIntel

inductive PeerAct where
  | send (frame : Json)
  /-- The output ends while the process goes on. -/
  | hangUp
  /-- The process ends, with an exit code unless a signal ended it. -/
  | exit (code : Option Int)
deriving DecidableEq, Repr

abbrev Agenda := List (Nat × PeerAct)

structure Peer (σ : Type) where
  state : σ
  /-- What a message that arrives at some time leads to. -/
  react : Nat → Json → σ → Agenda × σ
  agenda : Agenda := []
  /-- How the process has ended, once it has. -/
  ended : Option (Option Int) := none

namespace Peer

variable {σ : Type}

def isRunning (p : Peer σ) : Bool :=
  p.ended.isNone

/-- Hands a message to the process. One that has ended takes no notice. -/
def receive (now : Nat) (message : Json) (p : Peer σ) : Peer σ :=
  if p.isRunning then
    let (acts, state) := p.react now message p.state
    { p with state := state, agenda := p.agenda ++ acts }
  else p

def due? (now : Nat) (p : Peer σ) : Option (PeerAct × Peer σ) :=
  match p.agenda with
  | (time, act) :: rest =>
    if time ≤ now then some (act, { p with agenda := rest }) else none
  | [] => none

def nextTime? (p : Peer σ) : Option Nat :=
  p.agenda.head?.map Prod.fst

def exit (code : Option Int) (p : Peer σ) : Peer σ :=
  { p with agenda := [], ended := some code }

def kill (p : Peer σ) : Peer σ :=
  p.exit none

end Peer
end CodeIntel
