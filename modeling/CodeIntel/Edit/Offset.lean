import CodeIntel.Protocol.Position
import CodeIntel.Text.Lines
import CodeIntel.Text.Units

/-!
# Byte offsets of positions

A position counts lines and, within its line, 16-bit units. Its offset counts
bytes. A column past the end of its line stands for that end, before any
carriage return that closes the line; a line that does not exist has no offset.
-/

namespace CodeIntel
namespace Offset

/-- The first line without its terminator. A carriage return at its end belongs
to the terminator, here also at the end of the text. -/
def firstLine (text : List Char) : List Char :=
  (Text.dropReturn (text.takeWhile (· ≠ '\n')).reverse).reverse

/-- The bytes in front of column `target` of a line, when `seen` units come
before it. -/
def ofColumn (target seen : Nat) : List Char → Nat
  | [] => 0
  | c :: rest =>
    if target ≤ seen then 0
    else c.utf8Size + ofColumn target (seen + Text.unitsOf c) rest

def at? (character : Nat) : Nat → List Char → Option Nat
  | 0, text => some (ofColumn character 0 (firstLine text))
  | line + 1, text =>
    match text.dropWhile (· ≠ '\n') with
    | [] => none
    | _ :: rest =>
      (at? character line rest).map
        (Text.bytes (text.takeWhile (· ≠ '\n')) + 1 + ·)

def ofPosition? (text : List Char) (p : Position) : Option Nat :=
  at? p.character p.line text

def before : Nat → List Char → List Char
  | _, [] => []
  | n, c :: rest =>
    if c.utf8Size ≤ n then c :: before (n - c.utf8Size) rest else []

def behind : Nat → List Char → List Char
  | _, [] => []
  | n, c :: rest =>
    if c.utf8Size ≤ n then behind (n - c.utf8Size) rest else c :: rest

theorem before_append_behind (n : Nat) (text : List Char) :
    before n text ++ behind n text = text := by
  induction text generalizing n with
  | nil =>
      rfl
  | cons c rest ih =>
      simp only [before, behind]
      split
      · simp [ih]
      · rfl

end Offset
end CodeIntel
