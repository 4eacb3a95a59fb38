import CodeIntel.Protocol.Edit

/-!
# Commands, lenses and diagnostics
-/

namespace CodeIntel

structure Command where
  title : String
  command : String
  arguments : Option (List Json)
deriving DecidableEq, Repr

namespace Command

def decode? (v : Json) : Option Command := do
  let v ← v.record? ["title", "command", "arguments"]
  let title ← v.field? Json.str? "title"
  let command ← v.field? Json.str? "command"
  let arguments ← v.optional? Json.arr? "arguments"
  some ⟨title, command, arguments⟩

def toJson (c : Command) : Json :=
  Json.ofOptions [("title", some (.str c.title)),
    ("command", some (.str c.command)), ("arguments", c.arguments.map .arr)]

end Command

/-- A command shown at a range of a document; without a command it must first be
resolved. -/
structure CodeLens where
  range : Range
  command : Option Command
  data : Option Json
deriving DecidableEq, Repr

namespace CodeLens

def decode? (v : Json) : Option CodeLens := do
  let v ← v.record? ["range", "command", "data"]
  let range ← v.field? Range.decode? "range"
  let command ← v.optional? Command.decode? "command"
  let data ← v.optional? Json.any? "data"
  some ⟨range, command, data⟩

def toJson (l : CodeLens) : Json :=
  Json.ofOptions [("range", some l.range.toJson),
    ("command", l.command.map Command.toJson), ("data", l.data)]

end CodeLens

inductive DiagnosticCode where
  | number (n : Int)
  | text (s : String)
deriving DecidableEq, Repr

namespace DiagnosticCode

def decode? (v : Json) : Option DiagnosticCode :=
  ((Json.i32? v).map .number).or (v.str?.map .text)

def toJson : DiagnosticCode → Json
  | .number n => .int n
  | .text s => .str s

end DiagnosticCode

structure RelatedInformation where
  location : Location
  message : String
deriving DecidableEq, Repr

namespace RelatedInformation

def decode? (v : Json) : Option RelatedInformation := do
  let v ← v.record? ["location", "message"]
  let location ← v.field? Location.decode? "location"
  let message ← v.field? Json.str? "message"
  some ⟨location, message⟩

def toJson (r : RelatedInformation) : Json :=
  Json.ofMembers [("location", r.location.toJson), ("message", .str r.message)]

end RelatedInformation

structure Diagnostic where
  range : Range
  severity : Option Int
  code : Option DiagnosticCode
  codeHref : Option Url
  source : Option String
  message : String
  related : Option (List RelatedInformation)
  tags : Option (List Int)
  data : Option Json
deriving DecidableEq, Repr

namespace Diagnostic

def decodeHref? (v : Json) : Option Url :=
  v.only? Url.decode? "href"

def decode? (v : Json) : Option Diagnostic := do
  let v ← v.record? ["range", "severity", "code", "codeDescription", "source",
      "message", "relatedInformation", "tags", "data"]
  let range ← v.field? Range.decode? "range"
  let severity ← v.optional? Json.i32? "severity"
  let code ← v.optional? DiagnosticCode.decode? "code"
  let codeHref ← v.optional? decodeHref? "codeDescription"
  let source ← v.optional? Json.str? "source"
  let message ← v.field? Json.str? "message"
  let related ← v.optional? (Json.list? RelatedInformation.decode?)
    "relatedInformation"
  let tags ← v.optional? (Json.list? Json.i32?) "tags"
  let data ← v.optional? Json.any? "data"
  some ⟨range, severity, code, codeHref, source, message, related, tags, data⟩

def toJson (d : Diagnostic) : Json :=
  Json.ofOptions [("range", some d.range.toJson),
    ("severity", d.severity.map .int),
    ("code", d.code.map DiagnosticCode.toJson),
    ("codeDescription", d.codeHref.map fun u =>
      Json.ofMembers [("href", u.toJson)]),
    ("source", d.source.map .str), ("message", some (.str d.message)),
    ("relatedInformation", d.related.map (.ofList RelatedInformation.toJson)),
    ("tags", d.tags.map (.ofList .int)), ("data", d.data)]

end Diagnostic
end CodeIntel
