/-!
# Decimal numerals

Reading a natural number below a bound. A leading plus sign is accepted; the
first character that spoils the numeral decides the fault.
-/

namespace CodeIntel
namespace Numeral

inductive Fault where
  | empty
  | invalidDigit
  | tooLarge
deriving DecidableEq, Repr

def Fault.message : Fault → String
  | .empty => "cannot parse integer from empty string"
  | .invalidDigit => "invalid digit found in string"
  | .tooLarge => "number too large to fit in target type"

def digit? (c : Char) : Option Nat :=
  if '0' ≤ c ∧ c ≤ '9' then some (c.toNat - 48) else none

/-- Extends the value `acc` of the digits read so far; no value may exceed
`bound`. -/
def digitsFrom (bound acc : Nat) : List Char → Except Fault Nat
  | [] => .ok acc
  | c :: rest =>
    match digit? c with
    | none => .error .invalidDigit
    | some d =>
      if acc * 10 + d ≤ bound then digitsFrom bound (acc * 10 + d) rest
      else .error .tooLarge

def read (bound : Nat) : List Char → Except Fault Nat
  | [] => .error .empty
  | ['+'] => .error .invalidDigit
  | '+' :: rest => digitsFrom bound 0 rest
  | text => digitsFrom bound 0 text

def max64 : Nat := Nat.pow 2 64 - 1

def padded (width n : Nat) : String :=
  let text := toString n
  String.ofList (List.replicate (width - text.length) ' ') ++ text

end Numeral
end CodeIntel
