import CodeIntel.Peer.Plan
import CodeIntel.Script.Command
import CodeIntel.Script.Value
import CodeIntel.Totals

/-!
# Running shell scripts

A script is run ahead of time: what it prints, how long it sleeps, when it waits
for input and how it ends make up the plan of a process. The input itself is not
looked at.
-/

namespace CodeIntel
namespace Script

inductive Event where
  | write (bytes : List UInt8)
  | hangUp
  | sleep (ms : Nat)
  | awaitLine
  /-- It ends, with an exit code unless a signal ended it. -/
  | exit (code : Option Nat)
deriving DecidableEq, Repr

structure Shell where
  bindings : List (String × String) := []
  /-- Whether the output goes to the other end. -/
  isOutputSeen : Bool := true
  /-- Whether error messages go to the other end. -/
  areErrorsSeen : Bool := false
  /-- Whether the input comes from the other end. -/
  isInputAwaited : Bool := true
  status : Nat := 0
  /-- Whether a command that fails ends the shell. -/
  endsOnFailure : Bool := false
  /-- Whether a command runs only to see how it ends. -/
  isTrial : Bool := false
  /-- What has happened, the last event first. -/
  events : List Event := []
  /-- Whether the shell does nothing more: it has ended, or it waits forever. -/
  isOver : Bool := false
deriving DecidableEq, Repr

namespace Shell

/-! # Values -/

def processNumber : String := "1"

def value (sh : Shell) (name : String) : String :=
  let bound (name : String) :=
    ((sh.bindings.find? fun v => v.1 = name).map Prod.snd).getD ""
  match name with
  | "?" => toString sh.status
  | "$" => processNumber
  | "0" => "sh"
  | "#" => "0"
  | name =>
    match name.toList with
    | '#' :: name => toString (bound (String.ofList name)).utf8ByteSize
    | _ => bound name

def assign (sh : Shell) (name value : String) : Shell :=
  { sh with bindings := (name, value) :: sh.bindings.filter fun v =>
    v.1 ≠ name }

def pieceText (sh : Shell) : Piece → String
  | .text s => s
  | .variable name => sh.value name
  | .arithmetic e =>
    toString (evaluate (fun name => integerOf (sh.value name)) e)

def wordText (sh : Shell) (w : Word) : String :=
  String.join (w.pieces.map sh.pieceText)

/-- The words of a command. A word without quotes that turns out empty is
none. -/
def expand (sh : Shell) (ws : List Word) : List String :=
  ws.filterMap fun w =>
    let text := sh.wordText w
    if text.isEmpty ∧ !w.isQuoted then none else some text

/-! # Steps -/

def record (sh : Shell) (e : Event) : Shell :=
  { sh with events := e :: sh.events }

def withStatus (sh : Shell) (status : Nat) : Shell :=
  { sh with status := status }

def succeedIf (sh : Shell) (success : Bool) : Shell :=
  sh.withStatus (if success then 0 else 1)

def print (sh : Shell) (bytes : List UInt8) : Shell :=
  (if sh.isOutputSeen then sh.record (.write bytes) else sh).withStatus 0

def finish (sh : Shell) (code : Option Nat) : Shell :=
  { sh.record (.exit code) with isOver := true }

def stall (sh : Shell) : Shell :=
  { sh with isOver := true }

def readLine (sh : Shell) : Shell :=
  if sh.isInputAwaited then (sh.record .awaitLine).withStatus 0
  else sh.withStatus 1

/-- Reads its input to the end, which does not come from the other end. -/
def readAll (sh : Shell) : Shell :=
  if sh.isInputAwaited then sh.stall else sh.withStatus 0

/-! # Redirections -/

def redirect (sh : Shell) (r : Redirect) : Shell :=
  let toErrors := r.kind = .duplicate ∧ sh.wordText r.target = "2"
  let toOutput := r.kind = .duplicate ∧ sh.wordText r.target = "1"
  match r.stream, r.kind with
  | 0, _ => { sh with isInputAwaited := false }
  | 1, _ => { sh with isOutputSeen := decide toErrors && sh.areErrorsSeen }
  | 2, _ => { sh with areErrorsSeen := decide toOutput && sh.isOutputSeen }
  | _, _ => sh

def isSeen (sh : Shell) : Bool :=
  sh.isOutputSeen || sh.areErrorsSeen

def restore (before sh : Shell) : Shell :=
  { sh with
    isOutputSeen := before.isOutputSeen
    areErrorsSeen := before.areErrorsSeen
    isInputAwaited := before.isInputAwaited }

/-! # Simple commands -/

/-- The exit code of a shell that cannot read its script, or the number of an
exit code. -/
def unreadableCode : Nat := 2

def exitCode (s : String) : Nat :=
  if s.isEmpty || s.toList.any fun c => !c.isDigit then unreadableCode
  else ((integerOf s) % 256).toNat

def setOptions (sh : Shell) (args : List String) : Shell :=
  let sh := args.foldl (fun sh arg =>
    match arg.toList with
    | '-' :: letters =>
      if letters.contains 'e' then { sh with endsOnFailure := true } else sh
    | '+' :: letters =>
      if letters.contains 'e' then { sh with endsOnFailure := false } else sh
    | _ => sh) sh
  sh.withStatus 0

def sleepFor (sh : Shell) (times : List String) : Shell :=
  if times.contains "infinity" then sh.stall
  else if times.isEmpty then sh.withStatus 1
  else (sh.record (.sleep (sumOf millisOf times))).withStatus 0

def runNamed (sh : Shell) (name : String) (args : List String) : Shell :=
  match name with
  | "set" => sh.setOptions args
  | ":" | "true" | "trap" | "cd" | "umask" | "wait" | "export" | "unset" =>
    sh.withStatus 0
  | "false" => sh.withStatus 1
  | "exit" => sh.finish (some ((args.head?.map exitCode).getD sh.status))
  | "sleep" => sh.sleepFor args
  | "echo" => sh.print (echoed args)
  | "printf" => sh.print (printed args)
  | "test" => sh.withStatus (match condition? args with
    | some holds => if holds then 0 else 1
    | none => 2)
  | "[" => sh.withStatus (match condition? args.dropLast with
    | some holds => if holds then 0 else 1
    | none => 2)
  | "read" | "head" | "dd" => sh.readLine
  | "cat" => sh.readAll
  | "tail" => if args.contains "-f" then sh.stall else sh.readAll
  | "kill" =>
    if args.contains processNumber then sh.finish none else sh.withStatus 0
  | _ => sh.withStatus 127

def runSimple (sh : Shell) (assignments : List (String × Word))
    (words : List Word) (redirects : List Redirect) : Shell :=
  let redirected := redirects.foldl redirect sh
  match sh.expand words with
  | [] =>
    (assignments.foldl (fun sh a =>
      sh.assign a.1 (sh.wordText a.2)) sh).withStatus 0
  | ["exec"] =>
    if sh.isSeen && !redirected.isSeen then redirected.record .hangUp
    else redirected
  | "exec" :: name :: args =>
    let sh := redirected.runNamed name args
    if sh.isOver then sh else sh.finish (some sh.status)
  | name :: args => restore sh (redirected.runNamed name args)

/-! # Commands -/

/-- The status that stands for the end of a process: its exit code, or the
signal that ended it. -/
def statusOf (code : Option Nat) : Nat :=
  code.getD 137

/-- Goes on in the shell `outer` when the one inside it has done all that it
does. Only what has happened there, and its status, are kept. -/
def returnTo (outer inner : Shell) : Shell :=
  match inner.isOver, inner.events with
  | true, .exit code :: events =>
    { outer with events := events, status := statusOf code }
  | isOver, events =>
    { outer with events := events, status := inner.status, isOver := isOver }

/-- Ends the shell if it must not outlive a command that has failed. -/
def settle (sh : Shell) : Shell :=
  if sh.endsOnFailure && !sh.isTrial && !sh.isOver &&
    decide (sh.status ≠ 0) then
    sh.finish (some sh.status)
  else sh

def passesOn : Command → Bool
  | .simple [] [w] _ => w.pieces = [.text "cat"]
  | _ => false

def isWrite : Event → Bool
  | .write _ => true
  | _ => false

/-- What is to be seen of a command whose output is read by another one. -/
def pipedEvents (sh : Shell) (reader : Command) (events : List Event) :
    List Event :=
  if passesOn reader && sh.isOutputSeen then events
  else events.filter (!isWrite ·)

/-- Runs a command; `fuel` bounds the depth. A script that takes more does not
come to an end. -/
def run : Nat → Command → Shell → Shell
  | 0, _, sh => sh.stall
  | fuel + 1, c, sh =>
    let trial (c : Command) (sh : Shell) : Shell :=
      { run fuel c { sh with isTrial := true } with isTrial := sh.isTrial }
    if sh.isOver then sh
    else
      match c with
      | .simple assignments words redirects =>
        (sh.runSimple assignments words redirects).settle
      | .seq a b => run fuel b (run fuel a sh)
      | .both a b =>
        let sh := trial a sh
        if sh.status = 0 then run fuel b sh else sh
      | .either a b =>
        let sh := trial a sh
        if sh.status = 0 then sh else run fuel b sh
      | .pipe a b =>
        let source := returnTo { sh with events := [] }
          (run fuel a { sh with events := [], isOutputSeen := true })
        let sh :=
          { sh with
            events := pipedEvents sh b source.events ++ sh.events, isOver :=
              source.isOver }
        if passesOn b then sh.withStatus 0
        else
          (returnTo sh (run fuel b { sh with isInputAwaited := false })).settle
      | .loop whileSuccess condition body =>
        let sh := trial condition sh
        if decide (sh.status = 0) = whileSuccess then
          run fuel (.loop whileSuccess condition body) (run fuel body sh)
        else if sh.isOver then sh else sh.withStatus 0
      | .branch condition yes no =>
        let sh := trial condition sh
        if sh.status = 0 then run fuel yes sh else run fuel no (sh.withStatus 0)
      | .forEach name words body =>
        (sh.expand words).foldl (fun sh word =>
          run fuel body (sh.assign name word)) sh
      | .negation c =>
        let sh := trial c sh
        sh.succeedIf (sh.status ≠ 0)
      | .background _ => sh.withStatus 0
      | .redirected c redirects =>
        restore sh (run fuel c (redirects.foldl redirect sh))
      | .subshell c => (returnTo sh (run fuel c sh)).settle
      | .nothing => sh

/-- A script that runs deeper than this does not come to an end. -/
def maxDepth : Nat := 20000

def trace (c : Command) : List Event :=
  let sh := run maxDepth c {}
  let sh := if sh.isOver then sh else sh.finish (some sh.status)
  sh.events.reverse

end Shell

/-! # Plans -/

structure Draft where
  stages : List PlanStage := []
  awaits : Nat := 0
  acts : Agenda := []
  /-- The time since the current stage began. -/
  time : Nat := 0
  lines : Nat := 0
  /-- All that has been printed, the last piece first. -/
  output : List (List UInt8) := []
  sent : Nat := 0
deriving DecidableEq, Repr

namespace Draft

def act (d : Draft) (a : PeerAct) : Draft :=
  { d with acts := d.acts ++ [(d.time, a)] }

def flush (d : Draft) : Draft :=
  let frames :=
    Plan.framesOf (Frame.readAll (.ofBytes d.output.reverse.flatten))
  (frames.drop d.sent).foldl (fun d v => d.act (.send v))
    { d with sent := frames.length }

/-- The messages that must have arrived for a number of lines: each one brings a
header line and a blank line, and its body stands in front of the next header
line. -/
def messagesFor (lines : Nat) : Nat :=
  (lines + 1) / 2

def closeStage (d : Draft) : Draft :=
  { d with
    stages := d.stages ++ [⟨d.awaits, d.acts, d.time⟩]
    acts := []
    time := 0 }

def add (d : Draft) : Event → Draft
  | .write bytes => { d with output := bytes :: d.output }
  | .hangUp => d.flush.act .hangUp
  | .sleep ms =>
    let d := d.flush
    { d with time := d.time + ms }
  | .awaitLine =>
    let d := d.flush.closeStage
    { d with lines := d.lines + 1, awaits := messagesFor (d.lines + 1) }
  | .exit code => d.flush.act (.exit (code.map fun (n : Nat) => (n : Int)))

end Draft

def stagesOf (events : List Event) : List PlanStage :=
  (events.foldl Draft.add {}).flush.closeStage.stages

def peerOf (c : Command) : Peer Plan :=
  Plan.peer (stagesOf (Shell.trace c))

def peer (script : String) : Peer Plan :=
  match Command.parse? script with
  | some c => peerOf c
  | none => Plan.peer (stagesOf [.exit (some Shell.unreadableCode)])

end Script
end CodeIntel
