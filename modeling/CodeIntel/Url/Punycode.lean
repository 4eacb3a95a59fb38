/-!
# Labels in ASCII

A label with characters beyond ASCII has a form in ASCII: the ASCII characters
that it has, and behind a hyphen its other characters in ascending order, each
as the distance from the one before it. A distance is written as a numeral whose
digit weights adapt to the distances so far.
-/

namespace CodeIntel
namespace Punycode

/-! # Digits -/

def digit (d : Nat) : Char :=
  if d < 26 then Char.ofNat (97 + d) else Char.ofNat (22 + d)

def digitValue? (c : Char) : Option Nat :=
  if 'a' ≤ c ∧ c ≤ 'z' then some (c.toNat - 97)
  else if 'A' ≤ c ∧ c ≤ 'Z' then some (c.toNat - 65)
  else if '0' ≤ c ∧ c ≤ '9' then some (c.toNat - 22)
  else none

/-- The least value of a digit at place `k` that is not the last one of its
numeral. -/
def threshold (bias k : Nat) : Nat :=
  if k ≤ bias then 1 else if bias + 26 ≤ k then 26 else k - bias

theorem threshold_pos (bias k : Nat) : 0 < threshold bias k := by
  unfold threshold
  split
  · decide
  · split <;> omega

/-! # Numerals -/

def numeral (bias k q : Nat) : List Char :=
  let t := threshold bias k
  if q < t then [digit q]
  else digit (t + (q - t) % (36 - t)) :: numeral bias (k + 36)
    ((q - t) / (36 - t))
termination_by q
decreasing_by
  have := threshold_pos bias k
  have := Nat.div_le_self (q - threshold bias k) (36 - threshold bias k)
  omega

/-- Reads a numeral from place `k` on, whose digits weigh `weight` and more, on
top of `acc`. -/
def readNumeral (bias : Nat) :
    Nat → Nat → Nat → List Char → Option (Nat × List Char)
  | _, _, _, [] => none
  | k, weight, acc, c :: rest =>
    match digitValue? c with
    | none => none
    | some d =>
      let t := threshold bias k
      if d < t then some (acc + d * weight, rest)
      else readNumeral bias (k + 36) (weight * (36 - t)) (acc + d * weight) rest

theorem length_of_readNumeral {bias k weight acc n : Nat} {s rest : List Char}
    (h : readNumeral bias k weight acc s = some (n, rest)) :
    rest.length < s.length := by
  induction s generalizing k weight acc with
  | nil =>
      simp [readNumeral] at h
  | cons c s ih =>
      rw [readNumeral] at h
      split at h
      · simp at h
      · simp only at h
        split at h
        · obtain ⟨_, rfl⟩ := Prod.mk.inj (Option.some.inj h)
          simp
        · have := ih h
          simp only [List.length_cons]
          omega

/-! # Bias -/

def shrink (k delta : Nat) : Nat :=
  if 455 < delta then shrink (k + 36) (delta / 35)
  else k + 36 * delta / (delta + 38)
termination_by delta

/-- The bias after a distance in a label that has `count` characters by then. -/
def adapt (delta count : Nat) (first : Bool) : Nat :=
  let delta := if first then delta / 700 else delta / 2
  shrink 0 (delta + delta / count)

/-! # Labels -/

def isAscii (c : Char) : Bool :=
  c.toNat < 128

/-- What has been written of the characters beyond ASCII. -/
structure Draft where
  text : List Char := []
  distance : Nat := 0
  bias : Nat := 72
  count : Nat

/-- Passes a character of the label while those with the code point `m` are
written. -/
def Draft.pass (basic m : Nat) (d : Draft) (c : Char) : Draft :=
  if c.toNat < m then { d with distance := d.distance + 1 }
  else if c.toNat = m then
    { text := d.text ++ numeral d.bias 36 d.distance
      distance := 0
      bias := adapt d.distance (d.count + 1) (d.count = basic)
      count := d.count + 1 }
  else d

/-- Writes the characters with the given code points, all of which are at least
`n`. -/
def Draft.writeAll (label : List Char) (basic : Nat) :
    Nat → List Nat → Draft → Draft
  | _, [], d => d
  | n, m :: codes, d =>
    let d := { d with distance := d.distance + (m - n) * (d.count + 1) }
    let d := label.foldl (pass basic m) d
    writeAll label basic (m + 1) codes { d with distance := d.distance + 1 }

def encode (label : List Char) : List Char :=
  let basic := label.filter isAscii
  let codes := ((label.filter (!isAscii ·)).map Char.toNat).mergeSort.eraseDups
  let d := Draft.writeAll label basic.length 128 codes { count := basic.length }
  (if basic.isEmpty then [] else basic ++ ['-']) ++ d.text

def charAt? (n : Nat) : Option Char :=
  if h : n.isValidChar then some (Char.ofNatAux n h) else none

/-- Puts the characters that the numerals stand for into a label. -/
def insertAll (bias n i : Nat) (label numerals : List Char) :
    Option (List Char) :=
  if numerals.isEmpty then some label
  else
    match _h : readNumeral bias 36 1 i numerals with
    | none => none
    | some (j, rest) =>
      let count := label.length + 1
      let n := n + j / count
      match charAt? n with
      | none => none
      | some c =>
        insertAll (adapt (j - i) count (i = 0)) n (j % count + 1)
          (label.insertIdx (j % count) c) rest
termination_by numerals.length
decreasing_by exact length_of_readNumeral (by assumption)

/-- The ASCII characters before the last hyphen, and what stands behind it. A
hyphen at the start is none. -/
def cutLast (s : List Char) : List Char × List Char :=
  let tail := (s.reverse.takeWhile (· ≠ '-')).reverse
  match s.length - tail.length with
  | 0 | 1 => ([], s)
  | n + 1 => (s.take n, tail)

/-- The label whose form in ASCII is given. -/
def decode? (s : List Char) : Option (List Char) :=
  let (basic, numerals) := cutLast s
  insertAll 72 128 0 basic numerals

end Punycode
end CodeIntel
