import CodeIntel.Report.Place
import CodeIntel.Text.Lines
import CodeIntel.Text.Numeral

/-!
# Excerpts of sources

Lines around a target line, marked lines, numbered lines and spans of lines.
-/

namespace CodeIntel
namespace Excerpt

def wordSize : Nat := Nat.pow 2 64

/-- The lines shown around the line at `index`: the first one, and the one
behind the last. The bound behind the last line is a 64-bit sum, which wraps
around for a context of nearly that size. -/
def window (lineCount index context : Nat) : Nat × Nat :=
  (index - context, min ((index + context + 1) % wordSize) lineCount)

def shownLine (numbers : Bool) (target number : Nat) (text : String) : String :=
  let mark := if number = target then ">" else " "
  if numbers then s!"{mark} {Numeral.padded 4 number} | {text}\n"
  else s!"{mark} {text}\n"

/-- The lines within `context` lines of `line`, which counts from one. -/
def around (content : String) (line context : Nat) (numbers : Bool) : String :=
  let lines := Text.linesOf content
  let index := line - 1
  if lines.length ≤ index then ""
  else
    let (first, stop) := window lines.length index context
    let shown := (lines.take stop).drop first
    String.join (shown.mapIdx fun i text =>
      shownLine numbers (index + 1) (first + i + 1) text)

/-- The lines from `first` to `last`, both counted from zero, without a final
newline. -/
def span (content : String) (first last : Nat) : String :=
  "\n".intercalate (((Text.linesOf content).drop first).take (last - first + 1))

/-- Puts its number in front of each line. All numbers are as wide as the last
one. -/
def numbered (text : String) (firstLine : Nat) : String :=
  let lines := Text.linesOf text
  let width := (toString (firstLine + (lines.length - 1))).length
  String.join (lines.mapIdx fun i line =>
    s!"{Numeral.padded width (firstLine + i)}|{line}\n")

/-- The text of one line, which counts from zero; empty if there is no such
line. -/
def lineAt (content : String) (index : Nat) : String :=
  ((Text.linesOf content)[index]?).getD ""

end Excerpt
end CodeIntel
