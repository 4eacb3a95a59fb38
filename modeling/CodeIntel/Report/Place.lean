import CodeIntel.Fault
import CodeIntel.Protocol.Position

/-!
# Places as people count them

Editors and people count lines and columns from one, the protocol counts from
zero. This is the only module where the two meet.
-/

namespace CodeIntel

/-- A line and a column, both counted from one. -/
structure EditorPosition where
  line : Nat
  column : Nat
deriving DecidableEq, Repr

namespace EditorPosition

def ofPosition (p : Position) : EditorPosition :=
  ⟨Position.ordinal p.line, Position.ordinal p.character⟩

/-- The protocol position. Zero is no line and no column. -/
def toPosition (p : EditorPosition) : Except ClientFault Position :=
  if p.line = 0 ∨ p.column = 0 then .error (.invalidPosition p.line p.column)
  else .ok ⟨p.line - 1, p.column - 1⟩

def text (p : EditorPosition) : String :=
  s!"L{p.line}:C{p.column}"

def compare (p q : EditorPosition) : Ordering :=
  (Ord.compare p.line q.line).then (Ord.compare p.column q.column)

theorem toPosition_ofPosition {p : Position} (hline : p.line < 4294967295)
    (hcolumn : p.character < 4294967295) :
    (ofPosition p).toPosition = .ok p := by
  simp [ofPosition, toPosition, Position.ordinal_of_lt hline,
    Position.ordinal_of_lt hcolumn]

end EditorPosition

structure EditorRange where
  start : EditorPosition
  stop : EditorPosition
deriving DecidableEq, Repr

namespace EditorRange

def ofRange (r : Range) : EditorRange :=
  ⟨.ofPosition r.start, .ofPosition r.stop⟩

def toRange (r : EditorRange) : Except ClientFault Range := do
  let start ← r.start.toPosition
  let stop ← r.stop.toPosition
  .ok ⟨start, stop⟩

def text (r : EditorRange) : String :=
  s!"{r.start.text} - {r.stop.text}"

end EditorRange

namespace Report

def rangeText (r : Range) : String :=
  (EditorRange.ofRange r).text

def startsText (ranges : List Range) : String :=
  ", ".intercalate (ranges.map fun r =>
    (EditorPosition.ofPosition r.start).text)

def fileText (uri : Url) : String :=
  uri.toPath.text

def line (text : String) : String :=
  text ++ "\n"

def numbered (render : Nat → α → String) (items : List α) : String :=
  String.join (items.mapIdx fun i a => render (i + 1) a)

def unlessEmpty (render : String → String) : Option String → String
  | none => ""
  | some s => if s.isEmpty then "" else render s

end Report
end CodeIntel
