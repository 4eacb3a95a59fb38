import CodeIntel.Json.Basic

/-!
# Reading JSON

The grammar of the format and nothing more: no byte order mark, no characters
after the value, no lone surrogates, no numbers beyond the floating-point range
and no nesting deeper than 127 containers. Each reader returns its value with
the rest of the text.
-/

namespace CodeIntel
namespace Json

def maxDepth : Nat := 127

def isSpace (c : Char) : Bool :=
  c = ' ' || c = '\n' || c = '\t' || c = '\r'

def skipSpace (s : List Char) : List Char :=
  s.dropWhile isSpace

def dropText? : List Char → List Char → Option (List Char)
  | [], s => some s
  | _ :: _, [] => none
  | p :: ps, c :: s => if p = c then dropText? ps s else none

/-! # Strings -/

def hexValue? (c : Char) : Option Nat :=
  if '0' ≤ c ∧ c ≤ '9' then some (c.toNat - 48)
  else if 'a' ≤ c ∧ c ≤ 'f' then some (c.toNat - 87)
  else if 'A' ≤ c ∧ c ≤ 'F' then some (c.toNat - 55)
  else none

def hex4? : List Char → Option (Nat × List Char)
  | a :: b :: c :: d :: rest => do
    let a ← hexValue? a
    let b ← hexValue? b
    let c ← hexValue? c
    let d ← hexValue? d
    some (((a * 16 + b) * 16 + c) * 16 + d, rest)
  | _ => none

/-- The character after `\u`; one beyond the basic plane takes two escapes. -/
def unicodeEscape? (s : List Char) : Option (Char × List Char) := do
  let (n, rest) ← hex4? s
  if 0xDC00 ≤ n ∧ n ≤ 0xDFFF then none
  else if 0xD800 ≤ n ∧ n ≤ 0xDBFF then
    match rest with
    | '\\' :: 'u' :: rest =>
      let (m, rest) ← hex4? rest
      if 0xDC00 ≤ m ∧ m ≤ 0xDFFF then
        some (Char.ofNat (0x10000 + (n - 0xD800) * 0x400 + (m - 0xDC00)), rest)
      else none
    | _ => none
  else some (Char.ofNat n, rest)

def simpleEscape? : Char → Option Char
  | '"' => some '"'
  | '\\' => some '\\'
  | '/' => some '/'
  | 'b' => some '\x08'
  | 'f' => some '\x0c'
  | 'n' => some '\n'
  | 'r' => some '\r'
  | 't' => some '\t'
  | _ => none

/-- The characters of a string after its opening quote; `acc` holds those read
so far, last first. -/
def stringFrom (acc : List Char) : Nat → List Char → Option (String × List Char)
  | 0, _ => none
  | _, [] => none
  | fuel + 1, c :: rest =>
    if c = '"' then some (String.ofList acc.reverse, rest)
    else if c = '\\' then
      match rest with
      | [] => none
      | 'u' :: rest => do
        let (c, rest) ← unicodeEscape? rest
        stringFrom (c :: acc) fuel rest
      | e :: rest => do
        let c ← simpleEscape? e
        stringFrom (c :: acc) fuel rest
    else if c.toNat < 32 then none
    else stringFrom (c :: acc) fuel rest

def string? (s : List Char) : Option (String × List Char) :=
  stringFrom [] (s.length + 1) s

/-! # Numbers -/

def isDigit (c : Char) : Bool :=
  '0' ≤ c && c ≤ '9'

def takeDigits (s : List Char) : List Char × List Char :=
  (s.takeWhile isDigit, s.dropWhile isDigit)

def digitsValue (digits : List Char) : Nat :=
  digits.foldl (fun n c => n * 10 + (c.toNat - 48)) 0

def maxSignificand : Nat := Nat.pow 2 64 - 1

/-- Takes as many digits as a significand of 64 bits holds. Returns it with the
number of digits taken. -/
def significandFrom (acc taken : Nat) : List Char → Nat × Nat
  | [] => (acc, taken)
  | c :: rest =>
    let next := acc * 10 + (c.toNat - 48)
    if next ≤ maxSignificand then significandFrom next (taken + 1) rest
    else (acc, taken)

def exponent? (s : List Char) : Option (Int × List Char) :=
  let (negative, s) := match s with
    | '+' :: s => (false, s)
    | '-' :: s => (true, s)
    | s => (false, s)
  match takeDigits s with
  | ([], _) => none
  | (digits, rest) =>
    let n : Int := digitsValue digits
    some (if negative then -n else n, rest)

/-- The floating-point value of the digits before the point, those behind it and
an exponent. Digits beyond the significand only count for the scale, and not at
all behind the point. -/
def realValue? (negative : Bool) (whole fraction : List Char) (e : Int) :
    Option Binary64 :=
  let (significand, taken) := significandFrom 0 0 whole
  if taken < whole.length then
    -- the significand is full: what is left of the whole part moves the point
    let (significand, more) := significandFrom significand 0 fraction
    Binary64.ofDecimal? negative significand
      (((whole.length - taken : Nat) : Int) - more + e)
  else
    let (significand, more) := significandFrom significand 0 fraction
    Binary64.ofDecimal? negative significand (e - more)

/-- An integer if it has neither fraction nor exponent and fits 64 bits. Minus
zero does not. -/
def integerOrReal? (negative : Bool) (whole : List Char) : Option Json :=
  let n := digitsValue whole
  if negative then
    if 0 < n ∧ n ≤ Nat.pow 2 63 then some (.int (-(n : Int)))
    else (realValue? true whole [] 0).map .real
  else if n ≤ maxSignificand then some (.int n)
  else (realValue? false whole [] 0).map .real

def number? (s : List Char) : Option (Json × List Char) := do
  let (negative, s) := match s with
    | '-' :: s => (true, s)
    | s => (false, s)
  let (whole, rest) := takeDigits s
  if whole.isEmpty || (whole.head? = some '0' && whole.length ≠ 1) then none
  let (fraction, afterFraction) ← match rest with
    | '.' :: rest =>
      let (digits, rest) := takeDigits rest
      if digits.isEmpty then none else some (some digits, rest)
    | rest => some (none, rest)
  let (e, afterExponent) ← match afterFraction with
    | c :: rest =>
      if c = 'e' || c = 'E' then (exponent? rest).map fun (e, rest) =>
        (some e, rest)
      else some (none, afterFraction)
    | [] => some (none, [])
  match fraction, e with
  | none, none => do
    let v ← integerOrReal? negative whole
    some (v, afterExponent)
  | _, _ => do
    let x ← realValue? negative whole (fraction.getD []) (e.getD 0)
    some (.real x, afterExponent)

/-! # Values -/

mutual

def value? (depth : Nat) : Nat → List Char → Option (Json × List Char)
  | 0, _ => none
  | fuel + 1, s =>
    match skipSpace s with
    | [] => none
    | c :: rest =>
      if c = '"' then (string? rest).map fun (s, rest) => (.str s, rest)
      else if c = '[' then
        match depth with
        | 0 => none
        | depth + 1 =>
          match skipSpace rest with
          | ']' :: rest => some (.arr [], rest)
          | rest =>
            (items? depth fuel rest).map fun (items, rest) => (.arr items, rest)
      else if c = '\x7b' then
        match depth with
        | 0 => none
        | depth + 1 =>
          match skipSpace rest with
          | '\x7d' :: rest => some (.obj [], rest)
          | rest => (members? depth fuel rest).map fun (members, rest) =>
            (ofMembers members, rest)
      else if c = 'n' then (dropText? ['u', 'l', 'l'] rest).map (.null, ·)
      else if c = 't' then (dropText? ['r', 'u', 'e'] rest).map (.bool true, ·)
      else if c = 'f' then
        (dropText? ['a', 'l', 's', 'e'] rest).map (.bool false, ·)
      else number? (c :: rest)

def items? (depth : Nat) : Nat → List Char → Option (List Json × List Char)
  | 0, _ => none
  | fuel + 1, s => do
    let (item, rest) ← value? depth fuel s
    match skipSpace rest with
    | ']' :: rest => some ([item], rest)
    | ',' :: rest => do
      let (items, rest) ← items? depth fuel rest
      some (item :: items, rest)
    | _ => none

/-- The members of an object up to its closing brace, as they are written. -/
def members? (depth : Nat) :
    Nat → List Char → Option (List (String × Json) × List Char)
  | 0, _ => none
  | fuel + 1, s =>
    match skipSpace s with
    | '"' :: rest => do
      let (name, rest) ← string? rest
      match skipSpace rest with
      | ':' :: rest => do
        let (value, rest) ← value? depth fuel rest
        match skipSpace rest with
        | '\x7d' :: rest => some ([(name, value)], rest)
        | ',' :: rest => do
          let (members, rest) ← members? depth fuel rest
          some ((name, value) :: members, rest)
        | _ => none
      | _ => none
    | _ => none

end

def parse? (text : String) : Option Json := do
  let s := skipSpace text.toList
  let (value, rest) ← value? maxDepth (2 * s.length + 2) s
  if (skipSpace rest).isEmpty then some value else none

theorem parse?_space_cons {c : Char} (h : isSpace c = true) (text : String) :
    parse? (String.ofList (c :: text.toList)) = parse? text := by
  simp only [parse?, skipSpace, String.toList_ofList,
    List.dropWhile_cons_of_pos h]

end Json
end CodeIntel
