import CodeIntel.Text.Utf8

/-!
# Percent encoding

A byte that may not stand for itself is written as a percent sign and two
hexadecimal digits. Which bytes those are depends on the part of the URL.
-/

namespace CodeIntel
namespace Percent

def hexDigit (n : Nat) : Char :=
  if n < 10 then Char.ofNat (48 + n) else Char.ofNat (55 + n)

def escape (b : UInt8) : List Char :=
  ['%', hexDigit (b.toNat / 16), hexDigit (b.toNat % 16)]

def isControl (b : UInt8) : Bool :=
  b < 0x20 || 0x7F ≤ b

def isOneOf (s : String) (b : UInt8) : Bool :=
  s.toList.any fun c => c.toNat = b.toNat

def inFragment (b : UInt8) : Bool :=
  isControl b || isOneOf " \"<>\x60" b

def inPath (b : UInt8) : Bool :=
  inFragment b || isOneOf "#?\x7b\x7d" b

def inUserInfo (b : UInt8) : Bool :=
  inPath b || isOneOf "/:;=@[\\]^|" b

def inFileName (b : UInt8) : Bool :=
  inPath b || isOneOf "/%\\" b

def inQuery (b : UInt8) : Bool :=
  isControl b || isOneOf " \"#<>" b

def inSpecialQuery (b : UInt8) : Bool :=
  inQuery b || b = 0x27

def encode (set : UInt8 → Bool) (bytes : List UInt8) : List Char :=
  bytes.flatMap fun b => if set b then escape b else [Char.ofNat b.toNat]

def encodeText (set : UInt8 → Bool) (s : List Char) : List Char :=
  encode set (Utf8.encode (String.ofList s))

def hexValue? (b : UInt8) : Option UInt8 :=
  if 0x30 ≤ b && b ≤ 0x39 then some (b - 0x30)
  else if 0x41 ≤ b && b ≤ 0x46 then some (b - 0x37)
  else if 0x61 ≤ b && b ≤ 0x66 then some (b - 0x57)
  else none

/-- Undoes the escapes. A percent sign without two hexadecimal digits stands for
itself. -/
def decode : List UInt8 → List UInt8
  | [] => []
  | 0x25 :: a :: b :: rest =>
    match hexValue? a, hexValue? b with
    | some x, some y => (x * 16 + y) :: decode rest
    | _, _ => 0x25 :: decode (a :: b :: rest)
  | b :: rest => b :: decode rest

end Percent
end CodeIntel
