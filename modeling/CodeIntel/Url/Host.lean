import CodeIntel.Text.Numeral
import CodeIntel.Url.Domain
import CodeIntel.Url.Percent

/-!
# Hosts

The host of a URL in its normal form: a domain in lower case, an address of four
numbers, or an address of eight 16-bit groups in brackets. URLs of schemes
without a rule of their own have opaque hosts.
-/

namespace CodeIntel
namespace Host

def lowerAscii (s : List Char) : List Char :=
  s.map Char.toLower

/-! # Four numbers -/

def digitIn? (base : Nat) (c : Char) : Option Nat :=
  let value? :=
    if '0' ≤ c ∧ c ≤ '9' then some (c.toNat - 48)
    else if 'a' ≤ c ∧ c ≤ 'f' then some (c.toNat - 87)
    else if 'A' ≤ c ∧ c ≤ 'F' then some (c.toNat - 55)
    else none
  value?.bind fun n => if n < base then some n else none

def valueIn? (base : Nat) (digits : List Char) : Option Nat :=
  digits.foldl (fun acc c => do
    let n ← acc
    let d ← digitIn? base c
    some (n * base + d)) (some 0)

/-- A number of an address: decimal, octal after `0`, hexadecimal after `0x`. -/
def number? : List Char → Option Nat
  | [] => none
  | '0' :: 'x' :: digits | '0' :: 'X' :: digits => valueIn? 16 digits
  | ['0'] => some 0
  | '0' :: digits => valueIn? 8 digits
  | digits => valueIn? 10 digits

def labels (domain : List Char) : List (List Char) :=
  let parts := Domain.splitOn '.' domain
  if parts.getLast? = some [] ∧ 1 < parts.length then parts.dropLast else parts

/-- A domain whose last label is a number can only be an address. -/
def endsInNumber (domain : List Char) : Bool :=
  match (labels domain).getLast? with
  | some (c :: rest) =>
    (c :: rest).all Char.isDigit || (number? (c :: rest)).isSome
  | _ => false

/-- An address of up to four numbers, the last of which fills the remaining
bytes. -/
def address4? (domain : List Char) : Option (List Char) := do
  let parts := labels domain
  if 4 < parts.length then none
  let numbers ← parts.mapM number?
  let last ← numbers.getLast?
  let front := numbers.dropLast
  if front.any (255 < ·) then none
  if Nat.pow 256 (5 - numbers.length) ≤ last then none
  let value :=
    front.zipIdx.foldl (fun acc (n, i) => acc + n * Nat.pow 256 (3 - i)) last
  let group (i : Nat) := toString (value / Nat.pow 256 (3 - i) % 256)
  some (".".intercalate ((List.range 4).map group)).toList

/-! # Eight groups -/

def hexText (n : Nat) : List Char :=
  (Nat.toDigits 16 n)

/-- The groups of one side of `::`; the last may be an address of four
numbers. -/
def groups? : List (List Char) → Option (List Nat)
  | [] => some []
  | [last] =>
    if last.contains '.' then do
      let bytes ← (Domain.splitOn '.' last).mapM fun digits =>
        if digits.isEmpty || (1 < digits.length && digits.head? = some '0') then
          none
        else (valueIn? 10 digits).bind fun n => if n ≤ 255 then some n else none
      match bytes with
      | [a, b, c, d] => some [a * 256 + b, c * 256 + d]
      | _ => none
    else if last.isEmpty || 4 < last.length then none
    else (valueIn? 16 last).map ([·])
  | digits :: rest =>
    if digits.isEmpty || 4 < digits.length then none
    else do
      let n ← valueIn? 16 digits
      let ns ← groups? rest
      some (n :: ns)

def cutDouble : List Char → Option (List Char × List Char)
  | [] => none
  | ':' :: ':' :: rest => some ([], rest)
  | c :: rest => (cutDouble rest).map fun (a, b) => (c :: a, b)

def side? (s : List Char) : Option (List Nat) :=
  if s.isEmpty then some [] else groups? (Domain.splitOn ':' s)

def address6Groups? (s : List Char) : Option (List Nat) :=
  match cutDouble s with
  | none => do
    let gs ← side? s
    if gs.length = 8 then some gs else none
  | some (before, after) => do
    if before.contains '.' then none
    let front ← side? before
    let back ← side? after
    if 7 < front.length + back.length then none
    else
      some (front ++ List.replicate (8 - front.length - back.length) 0 ++ back)

def zeroRun (gs : List Nat) : Nat :=
  (gs.takeWhile (· = 0)).length

/-- Start and length of the first longest run of at least two zero groups. -/
def longestZeros (gs : List Nat) : Option (Nat × Nat) :=
  (List.range gs.length).foldl (fun best i =>
    let n := zeroRun (gs.drop i)
    match best with
    | some (j, m) => if m < n then some (i, n) else some (j, m)
    | none => if 2 ≤ n then some (i, n) else none) none

def joinGroups (gs : List Nat) : List Char :=
  [':'].intercalate (gs.map hexText)

def address6Text (gs : List Nat) : List Char :=
  match longestZeros gs with
  | none => joinGroups gs
  | some (i, n) =>
    joinGroups (gs.take i) ++ [':', ':'] ++ joinGroups (gs.drop (i + n))

def address6? (s : List Char) : Option (List Char) := do
  if s.getLast? ≠ some ']' then none
  let gs ← address6Groups? s.dropLast
  some ('[' :: address6Text gs ++ [']'])

/-! # Domains -/

def forbiddenInDomain (c : Char) : Bool :=
  c.toNat ≤ 0x20 || c.toNat = 0x7F || "%#/:<>?@[\\]^|".toList.contains c

def forbiddenInOpaque (c : Char) : Bool :=
  c.toNat = 0 || "\t\n\r #/:<>?@[\\]^|".toList.contains c

def special? (s : List Char) : Option (List Char) := do
  match s with
  | '[' :: rest => address6? rest
  | _ =>
    let decoded := Utf8.lossy (Percent.decode (Utf8.encode (String.ofList s)))
    let domain ← Domain.normalForm? decoded.toList
    if domain.isEmpty || domain.any forbiddenInDomain then none
    else if endsInNumber domain then address4? domain
    else some domain

def opaque? (s : List Char) : Option (List Char) :=
  match s with
  | '[' :: rest => address6? rest
  | _ =>
    if s.any forbiddenInOpaque then none
    else some (Percent.encodeText Percent.isControl s)

end Host
end CodeIntel
