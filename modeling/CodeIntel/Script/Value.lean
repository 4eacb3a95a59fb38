import CodeIntel.Script.Word
import CodeIntel.Text.Utf8

/-!
# Values in shell scripts

Expressions over integers, durations, and the texts that the commands for
printing produce.
-/

namespace CodeIntel
namespace Script

/-! # Integers -/

/-- The integer that a text starts with; none counts as zero. -/
def integerOf (s : String) : Int :=
  let cs := s.toList.dropWhile (· = ' ')
  let digits (cs : List Char) : Int :=
    (cs.takeWhile Char.isDigit).foldl (fun n c =>
      n * 10 + (c.toNat - '0'.toNat : Nat)) 0
  match cs with
  | '-' :: rest => -digits rest
  | cs => digits cs

mutual

def sum (value : String → Int) : Nat → List Char → Int × List Char
  | 0, cs => (0, cs)
  | fuel + 1, cs =>
    let (n, cs) := product value fuel cs
    sumRest value n fuel cs

def sumRest (value : String → Int) (n : Int) : Nat → List Char → Int × List Char
  | 0, cs => (n, cs)
  | fuel + 1, cs =>
    match cs with
    | '+' :: rest =>
      let (m, rest) := product value fuel rest
      sumRest value (n + m) fuel rest
    | '-' :: rest =>
      let (m, rest) := product value fuel rest
      sumRest value (n - m) fuel rest
    | cs => (n, cs)

def product (value : String → Int) : Nat → List Char → Int × List Char
  | 0, cs => (0, cs)
  | fuel + 1, cs =>
    let (n, cs) := factor value fuel cs
    productRest value n fuel cs

def productRest (value : String → Int) (n : Int) : Nat → List Char →
    Int × List Char
  | 0, cs => (n, cs)
  | fuel + 1, cs =>
    match cs with
    | '*' :: rest =>
      let (m, rest) := factor value fuel rest
      productRest value (n * m) fuel rest
    | '/' :: rest =>
      let (m, rest) := factor value fuel rest
      productRest value (n.tdiv m) fuel rest
    | '%' :: rest =>
      let (m, rest) := factor value fuel rest
      productRest value (n.tmod m) fuel rest
    | cs => (n, cs)

def factor (value : String → Int) : Nat → List Char → Int × List Char
  | 0, cs => (0, cs)
  | fuel + 1, cs =>
    match cs with
    | '(' :: rest =>
      let (n, rest) := sum value fuel rest
      (n, rest.drop 1)
    | '-' :: rest =>
      let (n, rest) := factor value fuel rest
      (-n, rest)
    | '$' :: rest => factor value fuel rest
    | cs =>
      let name := cs.takeWhile isNamePart
      let n :=
        if name.head?.any Char.isDigit then integerOf (String.ofList name)
        else value (String.ofList name)
      (n, cs.dropWhile isNamePart)

end

def evaluate (value : String → Int) (expression : String) : Int :=
  let cs := expression.toList.filter (· ≠ ' ')
  (sum value (8 * cs.length + 8) cs).1

/-! # Durations -/

def millisOf (s : String) : Nat :=
  let cs := s.toList
  let whole := cs.takeWhile Char.isDigit
  let decimals := ((cs.dropWhile Char.isDigit).drop 1).takeWhile Char.isDigit
  let digits := whole ++ (decimals ++ ['0', '0', '0']).take 3
  (integerOf (String.ofList digits)).toNat

/-! # Printed texts -/

/-- The byte that up to `limit` octal digits denote, with what follows them. -/
def octal (limit : Nat) (cs : List Char) : UInt8 × List Char :=
  let digits := (cs.take limit).takeWhile fun c => '0' ≤ c ∧ c ≤ '7'
  (UInt8.ofNat (digits.foldl (fun n c => n * 8 + (c.toNat - '0'.toNat)) 0),
    cs.drop digits.length)

def escapedByte? : Char → Option UInt8
  | 'n' => some 0x0A
  | 'r' => some 0x0D
  | 't' => some 0x09
  | 'a' => some 0x07
  | 'b' => some 0x08
  | 'f' => some 0x0C
  | 'v' => some 0x0B
  | '\\' => some 0x5C
  | _ => none

def escaped : List Char → List UInt8 × List Char
  | [] => ([0x5C], [])
  | c :: rest =>
    match escapedByte? c with
    | some b => ([b], rest)
    | none =>
      if '0' ≤ c ∧ c ≤ '7' then
        let (b, rest) := octal 3 (c :: rest)
        ([b], rest)
      else (0x5C :: Utf8.encode (String.singleton c), rest)

def unescape : Nat → List Char → List UInt8
  | 0, _ | _, [] => []
  | fuel + 1, '\\' :: rest =>
    let (bytes, rest) := escaped rest
    bytes ++ unescape fuel rest
  | fuel + 1, c :: rest =>
    Utf8.encode (String.singleton c) ++ unescape fuel rest

def formatted (args : List String) : Nat → List Char → List UInt8
  | 0, _ | _, [] => []
  | fuel + 1, '\\' :: rest =>
    let (bytes, rest) := escaped rest
    bytes ++ formatted args fuel rest
  | fuel + 1, '%' :: '%' :: rest => 0x25 :: formatted args fuel rest
  | fuel + 1, '%' :: 'd' :: rest =>
    Utf8.encode (toString (integerOf (args.headD "0"))) ++
      formatted args.tail fuel rest
  | fuel + 1, '%' :: 'b' :: rest =>
    let arg := (args.headD "").toList
    unescape arg.length arg ++ formatted args.tail fuel rest
  | fuel + 1, '%' :: 's' :: rest =>
    Utf8.encode (args.headD "") ++ formatted args.tail fuel rest
  | fuel + 1, c :: rest =>
    Utf8.encode (String.singleton c) ++ formatted args fuel rest

def printed : List String → List UInt8
  | [] => []
  | format :: args => formatted args format.length format.toList

/-- The words of a line, which ends unless the first word says that it does
not. -/
def echoed : List String → List UInt8
  | "-n" :: words => Utf8.encode (" ".intercalate words)
  | words =>
    let cs := (" ".intercalate words).toList
    unescape cs.length cs ++ [0x0A]

/-! # Conditions -/

def negated : Option Bool → Option Bool :=
  Option.map (!·)

def condition? : List String → Option Bool
  | [] => some false
  | "!" :: rest => negated (condition? rest)
  | [s] => some !s.isEmpty
  | ["-z", s] => some s.isEmpty
  | ["-n", s] => some !s.isEmpty
  | [a, "=", b] => some (a = b)
  | [a, "!=", b] => some (a ≠ b)
  | [a, "-eq", b] => some (integerOf a = integerOf b)
  | [a, "-ne", b] => some (integerOf a ≠ integerOf b)
  | [a, "-lt", b] => some (integerOf a < integerOf b)
  | [a, "-le", b] => some (integerOf a ≤ integerOf b)
  | [a, "-gt", b] => some (integerOf b < integerOf a)
  | [a, "-ge", b] => some (integerOf b ≤ integerOf a)
  | _ => none

end Script
end CodeIntel
