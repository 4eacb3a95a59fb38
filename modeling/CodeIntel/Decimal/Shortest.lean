import CodeIntel.Decimal.Binary64

/-!
# Shortest decimals

The decimal with the fewest digits that reads back as a given binary value, the
nearest one if there are several, and how it is written.
-/

namespace CodeIntel

structure Decimal where
  digits : Nat
  exponent : Int
deriving DecidableEq, Repr

namespace Decimal

def compareTo (d : Decimal) (n : Nat) (j : Int) : Ordering :=
  compare (d.digits * Nat.pow 10 d.exponent.toNat * Nat.pow 2 (-j).toNat)
    (n * Nat.pow 2 j.toNat * Nat.pow 10 (-d.exponent).toNat)

/-- The gap below a power of two is half as wide as the gap above it. -/
def narrowBelow (x : Binary64) : Bool :=
  x.mantissa = Nat.pow 2 52 && Binary64.leastExponent < x.exponent

/-- Whether `d` lies among the numbers that round to the magnitude of `x`. The
ends of that interval belong to it if the mantissa is even. -/
def readsBack (x : Binary64) (d : Decimal) : Bool :=
  let lo := if narrowBelow x then 4 * x.mantissa - 1 else 4 * x.mantissa - 2
  let hi := 4 * x.mantissa + 2
  let closed := x.mantissa % 2 = 0
  let below := d.compareTo lo (x.exponent - 2)
  let above := d.compareTo hi (x.exponent - 2)
  (below = .gt || (closed && below = .eq)) &&
    (above = .lt || (closed && above = .eq))

/-- The greatest multiple of `10 ^ e` that is at most the magnitude of `x`, in
units of `10 ^ e`. -/
def floorAt (x : Binary64) (e : Int) : Nat :=
  x.num * Nat.pow 10 (-e).toNat / (x.den * Nat.pow 10 e.toNat)

/-- Of the two multiples of `10 ^ e` around `x`, the nearer one that reads
back. -/
def atScale? (x : Binary64) (e : Int) : Option Decimal :=
  let low : Decimal := ⟨floorAt x e, e⟩
  let high : Decimal := ⟨floorAt x e + 1, e⟩
  match readsBack x low, readsBack x high with
  | false, false => none
  | true, false => some low
  | false, true => some high
  | true, true =>
    match (⟨2 * low.digits + 1, e⟩ : Decimal).compareTo (2 * x.mantissa)
      x.exponent with
    | .gt => some low
    | .lt => some high
    | .eq => if low.digits % 2 = 0 then some low else some high

/-- The least `k` with `x < 10 ^ k`, by correcting an estimate upwards. -/
def scaleFrom (x : Binary64) : Nat → Int → Int
  | 0, k => k
  | fuel + 1, k =>
    if (⟨1, k⟩ : Decimal).compareTo x.mantissa x.exponent = .gt then k
    else scaleFrom x fuel (k + 1)

def scale (x : Binary64) : Int :=
  let binary : Int := (x.mantissa.log2 : Int) + x.exponent
  scaleFrom x 8 (binary * 30103 / 100000 - 2)

def stripped : Nat → Decimal → Decimal
  | 0, d => d
  | fuel + 1, d =>
    if d.digits ≠ 0 ∧ d.digits % 10 = 0 then
      stripped fuel ⟨d.digits / 10, d.exponent + 1⟩ else d

def shortest (x : Binary64) : Decimal :=
  if x.mantissa = 0 then ⟨0, 0⟩
  else
    let k := scale x
    match (List.range 17).findSome? fun (n : Nat) =>
      atScale? x (k - ((n : Int) + 1)) with
    | some d => stripped 20 d
    | none => ⟨floorAt x Binary64.leastExponent, Binary64.leastExponent⟩

def digitTexts (n : Nat) : List Char :=
  (toString n).toList

def zeros (n : Nat) : List Char :=
  List.replicate n '0'

def leading (d : Decimal) : Int :=
  d.exponent + (digitTexts d.digits).length - 1

/-- Positional notation, with at least one digit on each side of the point. -/
def positional (d : Decimal) : List Char :=
  let ds := digitTexts d.digits
  if 0 ≤ d.exponent then ds ++ zeros d.exponent.toNat ++ ['.', '0']
  else
    let places := (-d.exponent).toNat
    if places < ds.length then
      ds.take (ds.length - places) ++ '.' :: ds.drop (ds.length - places)
    else '0' :: '.' :: (zeros (places - ds.length) ++ ds)

/-- One digit, the point if more follow, and a signed exponent. -/
def scientific (d : Decimal) : List Char :=
  let e := d.leading
  let mark := if e < 0 then ['e', '-'] else ['e', '+']
  match digitTexts d.digits with
  | [] => []
  | [c] => c :: (mark ++ digitTexts e.natAbs)
  | c :: rest => c :: '.' :: (rest ++ mark ++ digitTexts e.natAbs)

end Decimal

namespace Binary64

/-- Numbers are written with the fewest digits that identify them: positionally
while the leading digit stands for `10 ^ -5` up to `10 ^ 15`, and with an
exponent beyond. -/
def text (x : Binary64) : String :=
  let d := Decimal.shortest x
  let body :=
    if x.mantissa = 0 then ['0', '.', '0']
    else if -5 ≤ d.leading ∧ d.leading < 16 then d.positional else d.scientific
  String.ofList (if x.negative then '-' :: body else body)

end Binary64
end CodeIntel
