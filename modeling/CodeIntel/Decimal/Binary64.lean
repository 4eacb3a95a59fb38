/-!
# Binary floating point

Finite values `± mantissa · 2 ^ exponent` with 53 bits, and the one operation
all others are built from: rounding an exact quotient to the nearest value, ties
to even. Arithmetic is exact on natural numbers up to that single rounding.
-/

namespace CodeIntel

/-- A finite value with 53 bits of precision. Values that `round?` builds are
normal: the mantissa is below `2 ^ 53`, and at least `2 ^ 52` unless the
exponent is the least one. -/
structure Binary64 where
  negative : Bool
  mantissa : Nat
  exponent : Int
deriving DecidableEq, Repr

namespace Binary64

def leastExponent : Int := -1074

def greatestExponent : Int := 971

def zero (negative : Bool) : Binary64 :=
  ⟨negative, 0, leastExponent⟩

def nearest (num den : Nat) : Nat :=
  let q := num / den
  let r := num % den
  if 2 * r < den then q
  else if den < 2 * r then q + 1
  else if q % 2 = 0 then q else q + 1

/-- The exponent at which `num / den` has 53 bits, but never below the least
one. -/
def scaleOf (num den : Nat) : Int :=
  let guess : Int := (num.log2 : Int) - den.log2 - 53
  let tooSmall :=
    den * Nat.pow 2 (guess + 53).toNat ≤ num * Nat.pow 2 (-(guess + 53)).toNat
  max leastExponent (if tooSmall then guess + 1 else guess)

/-- The value nearest to `num / den`; none if it is too large. -/
def round? (negative : Bool) (num den : Nat) : Option Binary64 :=
  if num = 0 then some (zero negative)
  else
    let q := scaleOf num den
    let m := nearest (num * Nat.pow 2 (-q).toNat) (den * Nat.pow 2 q.toNat)
    let (m, q) := if m = Nat.pow 2 53 then (Nat.pow 2 52, q + 1) else (m, q)
    if greatestExponent < q then none else some ⟨negative, m, q⟩

def num (x : Binary64) : Nat :=
  x.mantissa * Nat.pow 2 x.exponent.toNat

def den (x : Binary64) : Nat :=
  Nat.pow 2 (-x.exponent).toNat

def mul? (x y : Binary64) : Option Binary64 :=
  round? (x.negative != y.negative) (x.num * y.num) (x.den * y.den)

def div? (x y : Binary64) : Option Binary64 :=
  round? (x.negative != y.negative) (x.num * y.den) (x.den * y.num)

def ofNat? (n : Nat) : Option Binary64 :=
  round? false n 1

/-- Scales by a power of ten in steps of at most `10 ^ 308`, each rounded;
`fuel` bounds the steps. -/
def scaleTen? : Nat → Binary64 → Int → Option Binary64
  | 0, x, _ => some x
  | fuel + 1, x, e =>
    if e.natAbs ≤ 308 then do
      let power ← ofNat? (Nat.pow 10 e.natAbs)
      if 0 ≤ e then x.mul? power else x.div? power
    else if x.mantissa = 0 then some x
    else if 0 ≤ e then none
    else do
      let power ← ofNat? (Nat.pow 10 308)
      let x ← x.div? power
      scaleTen? fuel x (e + 308)

/-- Reads `± significand · 10 ^ e`; none if it is too large. A value that
underflows is zero, which four steps of scaling always reach. -/
def ofDecimal? (negative : Bool) (significand : Nat) (e : Int) :
    Option Binary64 := do
  let x ← ofNat? significand
  let x ← scaleTen? 4 x e
  some { x with negative := negative }

end Binary64
end CodeIntel
