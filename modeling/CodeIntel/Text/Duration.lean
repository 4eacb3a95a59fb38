/-!
# Durations

The text of a span of time: the largest of the units s, ms, µs and ns that it
fills, with the exact rest as a decimal fraction that has no trailing zeros.
-/

namespace CodeIntel

structure Duration where
  nanos : Nat
deriving DecidableEq, Repr

namespace Duration

def ofMillis (ms : Nat) : Duration :=
  ⟨ms * 1000000⟩

def dropTrailingZeros (digits : List Char) : List Char :=
  (digits.reverse.dropWhile (· = '0')).reverse

def fractionText (places rest : Nat) : String :=
  let digits := (toString rest).toList
  let digits :=
    dropTrailingZeros (List.replicate (places - digits.length) '0' ++ digits)
  if digits.isEmpty then "" else "." ++ String.ofList digits

def inUnit (d : Duration) (places : Nat) (unit : String) : String :=
  toString (d.nanos / Nat.pow 10 places) ++
    fractionText places (d.nanos % Nat.pow 10 places) ++ unit

def text (d : Duration) : String :=
  if 1000000000 ≤ d.nanos then d.inUnit 9 "s"
  else if 1000000 ≤ d.nanos then d.inUnit 6 "ms"
  else if 1000 ≤ d.nanos then d.inUnit 3 "µs"
  else d.inUnit 0 "ns"

end Duration
end CodeIntel
