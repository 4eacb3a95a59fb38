import CodeIntel.Json.Fields
import CodeIntel.Options
import CodeIntel.Text.Numeral

/-!
# How the scripted server is told to behave
-/

namespace CodeIntel
namespace Mock

structure Behaviour where
  /-- Whether it outlives its task and has to be killed. -/
  staysAlive : Bool := false
  /-- How long it waits before each response, in milliseconds. -/
  delayMs : Nat := 0
  /-- The methods whose requests are never answered. -/
  silentOn : List String := []
  /-- The methods whose requests are answered with an error. -/
  failsOn : List String := []
  /-- The text of the capabilities that it claims to have, in the stead of its
  own. -/
  capabilities : Option String := none
  fixture : Option String := none
  withoutDiagnostics : Bool := false
  /-- Whether it sends requests of its own once it is initialized. -/
  asksConfiguration : Bool := false
  /-- The file that lists the methods it was sent. -/
  journal : Option String := none
deriving DecidableEq, Repr

namespace Behaviour

inductive Key where
  | noExit
  | delay
  | hangOn
  | failOn
  | capabilities
  | fixture
  | noDiagnostics
  | askConfiguration
  | journal
deriving DecidableEq, Repr

def longSwitch? : String → Option (OptionSwitch Key)
  | "no-exit" => some (.flag .noExit)
  | "response-delay-ms" => some (.key .delay)
  | "hang-on" => some (.key .hangOn)
  | "fail-on" => some (.key .failOn)
  | "capabilities" => some (.key .capabilities)
  | "fixture" => some (.key .fixture)
  | "no-diagnostics" => some (.flag .noDiagnostics)
  | "ask-configuration" => some (.flag .askConfiguration)
  | "journal" => some (.key .journal)
  | "help" => some .help
  | _ => none

def shortSwitch? : Char → Option (OptionSwitch Key)
  | 'h' => some .help
  | _ => none

def check : Key → String → Except UsageFault Unit
  | .delay, v =>
    match Numeral.read Numeral.max64 v.toList with
    | .ok _ => .ok ()
    | .error _ => .error .valueValidation
  | .fixture, v | .journal, v =>
    if v.isEmpty then .error .invalidValue else .ok ()
  | _, _ => .ok ()

def options : OptionTable Key where
  long? := longSwitch?
  short? := shortSwitch?
  repeats k := k = .hangOn ∨ k = .failOn
  takesDash _ := false
  check := check

def ofReading (s : OptionReading Key) : Behaviour where
  staysAlive := s.isSet .noExit
  delayMs :=
    ((s.value? .delay).bind fun v =>
      (Numeral.read Numeral.max64 v.toList).toOption).getD 0
  silentOn := s.values .hangOn
  failsOn := s.values .failOn
  capabilities := s.value? .capabilities
  fixture := s.value? .fixture
  withoutDiagnostics := s.isSet .noDiagnostics
  asksConfiguration := s.isSet .askConfiguration
  journal := s.value? .journal

def parse (words : List String) : Except UsageFault Behaviour :=
  (OptionReading.readAll options {} words).map ofReading

end Behaviour
end Mock
end CodeIntel
