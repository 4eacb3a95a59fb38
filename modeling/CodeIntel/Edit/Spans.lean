import CodeIntel.Edit.Offset
import CodeIntel.Fault
import CodeIntel.Protocol.Edit
import CodeIntel.Sorting
import CodeIntel.Text.Dump

/-!
# Text edits

The edits of one document all refer to its text as it was. Each is a span of
bytes and the text that replaces it. Spans must not overlap; texts inserted at
one place stand in the order of the list.
-/

namespace CodeIntel

structure Span where
  start : Nat
  stop : Nat
  newText : List Char
deriving DecidableEq, Repr

namespace Span

inductive Fault where
  | pastEnd (line : Nat)
  | reversed (range : Range)
  | overlap (first second : Span)
deriving DecidableEq, Repr

def dumpPosition (p : Position) : String :=
  Dump.record "Position" [("line", toString p.line),
    ("character", toString p.character)]

def dumpRange (r : Range) : String :=
  Dump.record "Range" [("start", dumpPosition r.start),
    ("end", dumpPosition r.stop)]

def Fault.message : Fault → String
  | .pastEnd line =>
    s!"line {Position.ordinal line} is past the end of the document"
  | .reversed range => "edit range ends before it starts: " ++ dumpRange range
  | .overlap a b =>
    s!"overlapping edits at byte offsets {a.start}..{a.stop} " ++
      s!"and {b.start}..{b.stop}"

def locate (text : List Char) (p : Position) : Except Fault Nat :=
  match Offset.ofPosition? text p with
  | some n => .ok n
  | none => .error (.pastEnd p.line)

def ofEdit (text : List Char) (e : TextEdit) : Except Fault Span := do
  let start ← locate text e.range.start
  let stop ← locate text e.range.stop
  if stop < start then .error (.reversed e.range)
  else .ok ⟨start, stop, e.newText.toList⟩

def ofEdits (text : List Char) : List TextEdit → Except Fault (List Span)
  | [] => .ok []
  | e :: rest => do
    let span ← ofEdit text e
    let spans ← ofEdits text rest
    .ok (span :: spans)

def atMost (a b : Span) : Bool :=
  a.start < b.start || (a.start = b.start && a.stop ≤ b.stop)

def sorted (spans : List Span) : List Span :=
  Sorting.sortBy atMost spans

def overlap? : List Span → Option (Span × Span)
  | a :: b :: rest =>
    if b.start < a.stop then some (a, b) else overlap? (b :: rest)
  | _ => none

/-- Copies the text up to each span, then its new text; `text` is what stands
behind `cursor`. -/
def rewriteFrom (cursor : Nat) (text : List Char) : List Span → List Char
  | [] => text
  | s :: rest =>
    Offset.before (s.start - cursor) text ++ s.newText ++
      rewriteFrom s.stop (Offset.behind (s.stop - cursor) text) rest

def applyTo (text : List Char) (edits : List TextEdit) :
    Except Fault (List Char) := do
  let spans ← ofEdits text edits
  let spans := sorted spans
  match overlap? spans with
  | some (a, b) => .error (.overlap a b)
  | none => .ok (rewriteFrom 0 text spans)

end Span

namespace TextEdit

/-- Applies edits to a text. Nothing is applied if one of them does not fit it
or two overlap. -/
def applyAll (content : String) (edits : List TextEdit) :
    Except ToolFault String :=
  match Span.applyTo content.toList edits with
  | .ok text => .ok (String.ofList text)
  | .error f => .error (.edit f.message)

end TextEdit
end CodeIntel
