import CodeIntel.Protocol.Position

/-!
# Symbols

Symbols of a document, flat or as a tree, and symbols of a whole workspace.
-/

namespace CodeIntel

/-- A symbol kind is a number; the protocol names the first 26. -/
structure SymbolKind where
  code : Int
deriving DecidableEq, Repr

namespace SymbolKind

def decode? (v : Json) : Option SymbolKind :=
  (Json.i32? v).map (⟨·⟩)

def toJson (k : SymbolKind) : Json :=
  .int k.code

def names : List String :=
  ["File", "Module", "Namespace", "Package", "Class", "Method", "Property",
    "Field", "Constructor", "Enum", "Interface", "Function", "Variable",
    "Constant", "String", "Number", "Boolean", "Array",
    "Object", "Key", "Null", "EnumMember", "Struct", "Event", "Operator",
    "TypeParameter"]

def name (k : SymbolKind) : String :=
  if 1 ≤ k.code then (names[k.code.toNat - 1]?).getD "Unknown" else "Unknown"

def classKind : SymbolKind := ⟨5⟩

def methodKind : SymbolKind := ⟨6⟩

def enumKind : SymbolKind := ⟨10⟩

def interfaceKind : SymbolKind := ⟨11⟩

def functionKind : SymbolKind := ⟨12⟩

def variableKind : SymbolKind := ⟨13⟩

def constantKind : SymbolKind := ⟨14⟩

def structKind : SymbolKind := ⟨23⟩

def isType (k : SymbolKind) : Bool :=
  k = classKind || k = structKind || k = interfaceKind || k = enumKind

end SymbolKind

structure SymbolInformation where
  name : String
  kind : SymbolKind
  tags : Option (List Int)
  deprecated : Option Bool
  location : Location
  containerName : Option String
deriving DecidableEq, Repr

namespace SymbolInformation

def decode? (v : Json) : Option SymbolInformation := do
  let v ← v.record? ["name", "kind", "tags", "deprecated", "location",
      "containerName"]
  let name ← v.field? Json.str? "name"
  let kind ← v.field? SymbolKind.decode? "kind"
  let tags ← v.optional? (Json.list? Json.i32?) "tags"
  let deprecated ← v.optional? Json.bool? "deprecated"
  let location ← v.field? Location.decode? "location"
  let containerName ← v.optional? Json.str? "containerName"
  some ⟨name, kind, tags, deprecated, location, containerName⟩

def toJson (s : SymbolInformation) : Json :=
  Json.ofOptions [("name", some (.str s.name)), ("kind", some s.kind.toJson),
    ("tags", s.tags.map (.ofList .int)), ("deprecated", s.deprecated.map .bool),
    ("location", some s.location.toJson),
    ("containerName", s.containerName.map .str)]

end SymbolInformation

structure DocumentSymbol where
  name : String
  detail : Option String
  kind : SymbolKind
  tags : Option (List Int)
  deprecated : Option Bool
  range : Range
  selectionRange : Range
  children : Option (List DocumentSymbol)
deriving Repr

namespace DocumentSymbol

/-- Symbols nest no deeper than the values they are read from; `fuel` counts the
levels. -/
def decodeAt? : Nat → Json → Option DocumentSymbol
  | 0, _ => none
  | fuel + 1, v => do
    let v ← v.record? ["name", "detail", "kind", "tags", "deprecated", "range",
        "selectionRange", "children"]
    let name ← v.field? Json.str? "name"
    let detail ← v.optional? Json.str? "detail"
    let kind ← v.field? SymbolKind.decode? "kind"
    let tags ← v.optional? (Json.list? Json.i32?) "tags"
    let deprecated ← v.optional? Json.bool? "deprecated"
    let range ← v.field? Range.decode? "range"
    let selectionRange ← v.field? Range.decode? "selectionRange"
    let children ← v.optional? (Json.list? (decodeAt? fuel)) "children"
    some ⟨name, detail, kind, tags, deprecated, range, selectionRange, children⟩

mutual

def depth : Json → Nat
  | .arr items => depthItems items + 1
  | .obj members => depthMembers members + 1
  | _ => 0

def depthItems : List Json → Nat
  | [] => 0
  | v :: rest => max (depth v) (depthItems rest)

def depthMembers : List (String × Json) → Nat
  | [] => 0
  | (_, v) :: rest => max (depth v) (depthMembers rest)

end

def decode? (v : Json) : Option DocumentSymbol :=
  decodeAt? (depth v + 1) v

mutual

def toJson : DocumentSymbol → Json
  | ⟨name, detail, kind, tags, deprecated, range, selectionRange, children⟩ =>
    Json.ofOptions [("name", some (.str name)), ("detail", detail.map .str),
      ("kind", some kind.toJson), ("tags", tags.map (.ofList .int)),
      ("deprecated", deprecated.map .bool), ("range", some range.toJson),
      ("selectionRange", some selectionRange.toJson),
      ("children", childrenToJson children)]

def childrenToJson : Option (List DocumentSymbol) → Option Json
  | none => none
  | some cs => some (.arr (listToJson cs))

def listToJson : List DocumentSymbol → List Json
  | [] => []
  | s :: rest => toJson s :: listToJson rest

end

end DocumentSymbol

/-- The symbols of a document. An empty answer is flat. -/
inductive DocumentSymbols where
  | flat (symbols : List SymbolInformation)
  | nested (symbols : List DocumentSymbol)
deriving Repr

namespace DocumentSymbols

def decode? (v : Json) : Option DocumentSymbols :=
  ((Json.list? SymbolInformation.decode? v).map .flat).or
    ((Json.list? DocumentSymbol.decode? v).map .nested)

def toJson : DocumentSymbols → Json
  | .flat ss => .ofList SymbolInformation.toJson ss
  | .nested ss => .ofList DocumentSymbol.toJson ss

end DocumentSymbols

/-- Where a workspace symbol is: a range, or only a document. -/
inductive SymbolPlace where
  | range (l : Location)
  | document (uri : Url)
deriving DecidableEq, Repr

namespace SymbolPlace

def decode? (v : Json) : Option SymbolPlace :=
  ((Location.decode? v).map .range).or
    ((v.only? Url.decode? "uri").map .document)

def toJson : SymbolPlace → Json
  | .range l => l.toJson
  | .document u => Json.ofMembers [("uri", u.toJson)]

end SymbolPlace

structure WorkspaceSymbol where
  name : String
  kind : SymbolKind
  tags : Option (List Int)
  containerName : Option String
  location : SymbolPlace
  data : Option Json
deriving DecidableEq, Repr

namespace WorkspaceSymbol

def decode? (v : Json) : Option WorkspaceSymbol := do
  let v ← v.record? ["name", "kind", "tags", "containerName",
    "location", "data"]
  let name ← v.field? Json.str? "name"
  let kind ← v.field? SymbolKind.decode? "kind"
  let tags ← v.optional? (Json.list? Json.i32?) "tags"
  let containerName ← v.optional? Json.str? "containerName"
  let location ← v.field? SymbolPlace.decode? "location"
  let data ← v.optional? Json.any? "data"
  some ⟨name, kind, tags, containerName, location, data⟩

def toJson (s : WorkspaceSymbol) : Json :=
  Json.ofOptions [("name", some (.str s.name)), ("kind", some s.kind.toJson),
    ("tags", s.tags.map (.ofList .int)),
    ("containerName", s.containerName.map .str),
    ("location", some s.location.toJson), ("data", s.data)]

end WorkspaceSymbol

inductive WorkspaceSymbols where
  | flat (symbols : List SymbolInformation)
  | nested (symbols : List WorkspaceSymbol)
deriving DecidableEq, Repr

namespace WorkspaceSymbols

def decode? (v : Json) : Option WorkspaceSymbols :=
  ((Json.list? SymbolInformation.decode? v).map .flat).or
    ((Json.list? WorkspaceSymbol.decode? v).map .nested)

def toJson : WorkspaceSymbols → Json
  | .flat ss => .ofList SymbolInformation.toJson ss
  | .nested ss => .ofList WorkspaceSymbol.toJson ss

end WorkspaceSymbols
end CodeIntel
