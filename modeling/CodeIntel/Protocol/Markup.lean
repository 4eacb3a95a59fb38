import CodeIntel.Protocol.Position

/-!
# Texts for readers: documentation, hovers and signatures
-/

namespace CodeIntel

inductive MarkupKind where
  | plaintext
  | markdown
deriving DecidableEq, Repr

structure MarkupContent where
  kind : MarkupKind
  value : String
deriving DecidableEq, Repr

namespace MarkupContent

def decodeKind? (v : Json) : Option MarkupKind :=
  match v.choice? with
  | some "plaintext" => some .plaintext
  | some "markdown" => some .markdown
  | _ => none

def kindName : MarkupKind → String
  | .plaintext => "plaintext"
  | .markdown => "markdown"

def decode? (v : Json) : Option MarkupContent := do
  let v ← v.record? ["kind", "value"]
  let kind ← v.field? decodeKind? "kind"
  let value ← v.field? Json.str? "value"
  some ⟨kind, value⟩

def toJson (m : MarkupContent) : Json :=
  Json.ofMembers [("kind", .str (kindName m.kind)), ("value", .str m.value)]

end MarkupContent

inductive Documentation where
  | text (s : String)
  | markup (m : MarkupContent)
deriving DecidableEq, Repr

namespace Documentation

def decode? (v : Json) : Option Documentation :=
  (v.str?.map .text).or ((MarkupContent.decode? v).map .markup)

def toJson : Documentation → Json
  | .text s => .str s
  | .markup m => m.toJson

def value : Documentation → String
  | .text s => s
  | .markup m => m.value

end Documentation

/-! # Hovers -/

inductive MarkedString where
  | text (s : String)
  | code (language value : String)
deriving DecidableEq, Repr

namespace MarkedString

def decode? (v : Json) : Option MarkedString :=
  (v.str?.map .text).or do
    let v ← v.record? ["language", "value"]
    let language ← v.field? Json.str? "language"
    let value ← v.field? Json.str? "value"
    some (.code language value)

def toJson : MarkedString → Json
  | .text s => .str s
  | .code language value =>
    Json.ofMembers [("language", .str language), ("value", .str value)]

end MarkedString

inductive HoverContents where
  | one (s : MarkedString)
  | many (ss : List MarkedString)
  | markup (m : MarkupContent)
deriving DecidableEq, Repr

namespace HoverContents

def decode? (v : Json) : Option HoverContents :=
  ((MarkedString.decode? v).map .one).or <|
    ((Json.list? MarkedString.decode? v).map .many).or <|
      (MarkupContent.decode? v).map .markup

def toJson : HoverContents → Json
  | .one s => s.toJson
  | .many ss => .ofList MarkedString.toJson ss
  | .markup m => m.toJson

end HoverContents

structure Hover where
  contents : HoverContents
  range : Option Range
deriving DecidableEq, Repr

namespace Hover

def decode? (v : Json) : Option Hover := do
  let v ← v.record? ["contents", "range"]
  let contents ← v.field? HoverContents.decode? "contents"
  let range ← v.optional? Range.decode? "range"
  some ⟨contents, range⟩

def toJson (h : Hover) : Json :=
  Json.ofOptions [("contents", some h.contents.toJson),
    ("range", h.range.map Range.toJson)]

end Hover

/-! # Signatures -/

/-- What a parameter is called: a text of its own, or a part of its signature's
label. -/
inductive ParameterLabel where
  | text (s : String)
  | units (start stop : Nat)
deriving DecidableEq, Repr

namespace ParameterLabel

def decode? : Json → Option ParameterLabel
  | .str s => some (.text s)
  | .arr [a, b] => do
    let start ← Json.u32? a
    let stop ← Json.u32? b
    some (.units start stop)
  | _ => none

def toJson : ParameterLabel → Json
  | .text s => .str s
  | .units a b => .arr [.ofNat a, .ofNat b]

end ParameterLabel

structure Parameter where
  label : ParameterLabel
  documentation : Option Documentation
deriving DecidableEq, Repr

namespace Parameter

def decode? (v : Json) : Option Parameter := do
  let v ← v.record? ["label", "documentation"]
  let label ← v.field? ParameterLabel.decode? "label"
  let documentation ← v.optional? Documentation.decode? "documentation"
  some ⟨label, documentation⟩

def toJson (p : Parameter) : Json :=
  Json.ofOptions [("label", some p.label.toJson),
    ("documentation", p.documentation.map Documentation.toJson)]

end Parameter

structure Signature where
  label : String
  documentation : Option Documentation
  parameters : Option (List Parameter)
  activeParameter : Option Nat
deriving DecidableEq, Repr

namespace Signature

def decode? (v : Json) : Option Signature := do
  let v ← v.record? ["label", "documentation", "parameters", "activeParameter"]
  let label ← v.field? Json.str? "label"
  let documentation ← v.optional? Documentation.decode? "documentation"
  let parameters ← v.optional? (Json.list? Parameter.decode?) "parameters"
  let activeParameter ← v.optional? Json.u32? "activeParameter"
  some ⟨label, documentation, parameters, activeParameter⟩

def toJson (s : Signature) : Json :=
  Json.ofOptions [("label", some (.str s.label)),
    ("documentation", s.documentation.map Documentation.toJson),
    ("parameters", s.parameters.map (.ofList Parameter.toJson)),
    ("activeParameter", s.activeParameter.map .ofNat)]

end Signature

structure SignatureHelp where
  signatures : List Signature
  activeSignature : Option Nat
  activeParameter : Option Nat
deriving DecidableEq, Repr

namespace SignatureHelp

def decode? (v : Json) : Option SignatureHelp := do
  let v ← v.record? ["signatures", "activeSignature", "activeParameter"]
  let signatures ← v.field? (Json.list? Signature.decode?) "signatures"
  let activeSignature ← v.optional? Json.u32? "activeSignature"
  let activeParameter ← v.optional? Json.u32? "activeParameter"
  some ⟨signatures, activeSignature, activeParameter⟩

def toJson (h : SignatureHelp) : Json :=
  Json.ofOptions [("signatures", some (.ofList Signature.toJson h.signatures)),
    ("activeSignature", h.activeSignature.map .ofNat),
    ("activeParameter", h.activeParameter.map .ofNat)]

end SignatureHelp
end CodeIntel
