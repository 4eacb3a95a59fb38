import CodeIntel.Protocol.Markup
import CodeIntel.Report.Place
import CodeIntel.Text.Blank
import CodeIntel.Text.Units
import CodeIntel.Text.Utf8

/-!
# Reports on hovers and signatures
-/

namespace CodeIntel
namespace Report

/-! # Hovers -/

def markedString : MarkedString → String
  | .text s => s
  | .code language value => s!"```{language}\n{value}\n```"

def hoverText : HoverContents → String
  | .one s => markedString s
  | .many ss => "\n\n".intercalate (ss.map markedString)
  | .markup m => m.value

def hover (h : Option Hover) : String :=
  let text := (h.map fun h => hoverText h.contents).getD ""
  if (Text.trim text.toList).isEmpty then "No hover information available."
  else text

/-! # Parameter labels -/

/-- What the units from `start` to `stop` show of a text whose first character
has `offset` units before it. A character that is cut through shows as a
replacement mark. -/
def unitSlice (start stop offset : Nat) : List Char → List Char
  | [] => []
  | c :: rest =>
    let next := offset + Text.unitsOf c
    let head :=
      if start ≤ offset ∧ next ≤ stop then [c]
      else if max start offset < min stop next then [Utf8.replacement]
      else []
    head ++ unitSlice start stop next rest

/-- The name of a parameter. Units past the end of the signature's label name
nothing. -/
def parameterLabel (signature : String) : ParameterLabel → String
  | .text s => s
  | .units start stop => String.ofList (unitSlice start stop 0 signature.toList)

/-! # Signatures -/

def activeMark : String := "▶"

def markIf (active : Bool) : String :=
  if active then activeMark else " "

/-- The active signature: the one the server names, or else the last. -/
def activeIndex (h : SignatureHelp) : Nat :=
  min (h.activeSignature.getD 0) (h.signatures.length - 1)

def signatureLine (active : Nat) (n : Nat) (s : Signature) : String :=
  line s!"{markIf (n = active + 1)} {s.label}"

def parameterLine (signature : String) (active : Option Nat) (n : Nat)
    (p : Parameter) : String :=
  let documentation := (p.documentation.map fun d => s!" - {d.value}").getD ""
  line (s!"  {markIf (active.any (· + 1 = n))} " ++
    parameterLabel signature p.label ++ documentation)

def parameterLines (active : Option Nat) (s : Signature) : String :=
  match s.parameters with
  | some (p :: rest) =>
    "\nParameters:\n" ++
      numbered (parameterLine s.label (s.activeParameter.or active)) (p :: rest)
  | _ => ""

def signatureDetails (h : SignatureHelp) (s : Signature) : String :=
  parameterLines h.activeParameter s ++
    (s.documentation.map fun d => line s!"\nDocumentation:\n{d.value}").getD ""

def signatureCount (h : SignatureHelp) : String :=
  let n := h.signatures.length
  if n ≤ 1 then ""
  else
    line (s!"\nShowing {activeIndex h + 1} of {n} signatures " ++
      s!"({activeMark} marks active signature/parameter)")

/-- The signatures at a place; `lineText` is the line to show when there are
none. -/
def signatureHelp (help : Option SignatureHelp) (lineText : String) : String :=
  match help with
  | some h =>
    match h.signatures[activeIndex h]? with
    | some active =>
      "Signature Help:\n\n" ++
        numbered (signatureLine (activeIndex h)) h.signatures ++
        signatureDetails h active ++ signatureCount h
    | none => noSignatureHelp lineText
  | none => noSignatureHelp lineText
where
  noSignatureHelp (lineText : String) : String :=
    "No signature help available for this position on the following line:\n" ++
      lineText

end Report
end CodeIntel
