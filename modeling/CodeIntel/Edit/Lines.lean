import CodeIntel.Fault
import CodeIntel.Sorting
import CodeIntel.Text.Lines
import CodeIntel.Totals

/-!
# Edits of whole lines

An edit replaces the lines from its first to its last, both counted from one in
the text as it was, by the lines of its new text. The line after the last one
may be named to append. Edits may come in any order but must not overlap. The
text keeps its kind of line ending and its final newline.
-/

namespace CodeIntel

structure LineEdit where
  startLine : Nat
  endLine : Nat
  newText : String
deriving DecidableEq, Repr

structure EditSummary where
  edits : Nat
  removed : Nat
  added : Nat
deriving DecidableEq, Repr

def EditSummary.text (s : EditSummary) : String :=
  s!"Successfully applied {s.edits} edit(s): {s.removed} line(s) removed, " ++
    s!"{s.added} line(s) added"

namespace LineEdit

inductive Fault where
  | lineZero
  | reversed (startLine endLine : Nat)
  | pastEnd (startLine lineCount : Nat)
  | overlap (startLine : Nat)
deriving DecidableEq, Repr

def Fault.message : Fault → String
  | .lineZero => "line numbers are 1-indexed; startLine must be at least 1"
  | .reversed s e => s!"endLine {e} is before startLine {s}"
  | .pastEnd s n => s!"startLine {s} is past the end of the file ({n} lines)"
  | .overlap s => s!"edit starting at line {s} overlaps the previous edit"

def ordered (edits : List LineEdit) : List LineEdit :=
  Sorting.sortBy (fun a b => a.startLine ≤ b.startLine) edits

/-- Checks one edit of a text with `lineCount` lines, of which those up to
`previousEnd` are taken. -/
def check (lineCount previousEnd : Nat) (e : LineEdit) : Except Fault Unit :=
  if e.startLine = 0 then .error .lineZero
  else if e.endLine < e.startLine then .error (.reversed e.startLine e.endLine)
  else if lineCount + 1 < e.startLine then
    .error (.pastEnd e.startLine lineCount)
  else if e.startLine ≤ previousEnd then .error (.overlap e.startLine)
  else .ok ()

def checkAll (lineCount previousEnd : Nat) : List LineEdit → Except Fault Unit
  | [] => .ok ()
  | e :: rest =>
    match check lineCount previousEnd e with
    | .error f => .error f
    | .ok () => checkAll lineCount e.endLine rest

def replacement (e : LineEdit) : List (List Char) :=
  Text.lines e.newText.toList

def first (e : LineEdit) : Nat :=
  e.startLine - 1

def last (e : LineEdit) (lineCount : Nat) : Nat :=
  max (e.first) (min e.endLine lineCount)

def splice (lineCount : Nat) (e : LineEdit) (lines : List (List Char)) :
    List (List Char) :=
  lines.take e.first ++ e.replacement ++ lines.drop (e.last lineCount)

/-- Applies ascending edits from the last to the first, so that the numbers of
earlier lines stay valid. -/
def spliceAll (lineCount : Nat) (lines : List (List Char)) :
    List LineEdit → List (List Char)
  | [] => lines
  | e :: rest => splice lineCount e (spliceAll lineCount lines rest)

def removed (lineCount : Nat) (edits : List LineEdit) : Nat :=
  sumOf (fun e => e.last lineCount - e.first) edits

def added (edits : List LineEdit) : Nat :=
  sumOf (fun e => e.replacement.length) edits

/-! # Line endings -/

def hasReturnNewline : List Char → Bool
  | '\r' :: '\n' :: _ => true
  | _ :: rest => hasReturnNewline rest
  | [] => false

/-- The line ending of a text: the longer form if it occurs anywhere. -/
def ending (text : List Char) : List Char :=
  if hasReturnNewline text then ['\r', '\n'] else ['\n']

/-- Whether the last line is to be closed: it was before, or there was none. -/
def closes (text : List Char) : Bool :=
  text.isEmpty || text.getLast? = some '\n'

def joinLines (ending : List Char) (close : Bool) (lines : List (List Char)) :
    List Char :=
  ending.intercalate lines ++ (if close && !lines.isEmpty then ending else [])

/-! # Application -/

def applyTo (text : List Char) (edits : List LineEdit) :
    Except Fault (List Char × EditSummary) :=
  let lines := Text.lines text
  let sorted := ordered edits
  match checkAll lines.length 0 sorted with
  | .error f => .error f
  | .ok () =>
    .ok (joinLines (ending text) (closes text)
      (spliceAll lines.length lines sorted),
      ⟨edits.length, removed lines.length sorted, added sorted⟩)

/-- Applies edits to a text. Nothing is applied if one of them is out of range
or two overlap. -/
def apply (content : String) (edits : List LineEdit) :
    Except ToolFault (String × EditSummary) :=
  match applyTo content.toList edits with
  | .ok (text, summary) => .ok (String.ofList text, summary)
  | .error f => .error (.invalidArguments f.message)

end LineEdit
end CodeIntel
