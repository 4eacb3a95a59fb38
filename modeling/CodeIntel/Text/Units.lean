/-!
# Measures of a text

Protocol columns count 16-bit units, byte offsets count the bytes of UTF-8. Both
are sums over the characters of a text.
-/

namespace CodeIntel
namespace Text

def unitsOf (c : Char) : Nat :=
  if c.toNat < 0x10000 then 1 else 2

def units : List Char → Nat
  | [] => 0
  | c :: rest => unitsOf c + units rest

def bytes : List Char → Nat
  | [] => 0
  | c :: rest => c.utf8Size + bytes rest

theorem units_append (s t : List Char) :
    units (s ++ t) = units s + units t := by
  induction s with
  | nil =>
      simp [units]
  | cons c s ih =>
      simp [units, ih, Nat.add_assoc]

theorem bytes_append (s t : List Char) :
    bytes (s ++ t) = bytes s + bytes t := by
  induction s with
  | nil =>
      simp [bytes]
  | cons c s ih =>
      simp [bytes, ih, Nat.add_assoc]

theorem unitsOf_pos (c : Char) : 0 < unitsOf c := by
  unfold unitsOf
  split <;> omega

end Text
end CodeIntel
