/-!
# Lines

A line ends at a line feed. One carriage return right before that line feed
belongs to the terminator; a carriage return anywhere else, the very end of the
text included, belongs to the line. A final line feed starts no further line.
-/

namespace CodeIntel
namespace Text

def dropReturn : List Char → List Char
  | '\r' :: rest => rest
  | line => line

/-- The lines of a text, of whose first line the characters `current` have been
read, last first. -/
def linesFrom (current : List Char) : List Char → List (List Char)
  | [] => if current.isEmpty then [] else [current.reverse]
  | c :: rest =>
    if c = '\n' then (dropReturn current).reverse :: linesFrom [] rest
    else linesFrom (c :: current) rest

/-- The lines of a text, without their terminators. -/
def lines (text : List Char) : List (List Char) :=
  linesFrom [] text

def linesOf (text : String) : List String :=
  (lines text.toList).map String.ofList

theorem linesFrom_nil (current : List Char) :
    linesFrom current [] = if current.isEmpty then [] else [current.reverse] :=
  rfl

theorem linesFrom_newline (current rest : List Char) :
    linesFrom current ('\n' :: rest) = (dropReturn current).reverse ::
      linesFrom [] rest := by
  simp [linesFrom]

theorem linesFrom_cons {c : Char} (h : c ≠ '\n') (current rest : List Char) :
    linesFrom current (c :: rest) = linesFrom (c :: current) rest := by
  simp [linesFrom, h]

theorem lines_nil : lines [] = [] := rfl

end Text
end CodeIntel
