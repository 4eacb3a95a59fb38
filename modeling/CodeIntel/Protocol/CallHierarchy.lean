import CodeIntel.Protocol.Symbol

/-!
# Call hierarchies
-/

namespace CodeIntel

structure CallItem where
  name : String
  kind : SymbolKind
  tags : Option (List Int)
  detail : Option String
  uri : Url
  range : Range
  selectionRange : Range
  data : Option Json
deriving DecidableEq, Repr

namespace CallItem

def decode? (v : Json) : Option CallItem := do
  let v ← v.record? ["name", "kind", "tags", "detail", "uri", "range",
      "selectionRange", "data"]
  let name ← v.field? Json.str? "name"
  let kind ← v.field? SymbolKind.decode? "kind"
  let tags ← v.optional? (Json.list? Json.i32?) "tags"
  let detail ← v.optional? Json.str? "detail"
  let uri ← v.field? Url.decode? "uri"
  let range ← v.field? Range.decode? "range"
  let selectionRange ← v.field? Range.decode? "selectionRange"
  let data ← v.optional? Json.any? "data"
  some ⟨name, kind, tags, detail, uri, range, selectionRange, data⟩

def toJson (c : CallItem) : Json :=
  Json.ofOptions [("name", some (.str c.name)), ("kind", some c.kind.toJson),
    ("tags", c.tags.map (.ofList .int)), ("detail", c.detail.map .str),
    ("uri", some c.uri.toJson), ("range", some c.range.toJson),
    ("selectionRange", some c.selectionRange.toJson), ("data", c.data)]

end CallItem

inductive CallDirection where
  | incoming
  | outgoing
deriving DecidableEq, Repr

def CallDirection.ofName? : String → Option CallDirection
  | "incoming" => some .incoming
  | "outgoing" => some .outgoing
  | _ => none

def CallDirection.name : CallDirection → String
  | .incoming => "incoming"
  | .outgoing => "outgoing"

def CallDirection.member : CallDirection → String
  | .incoming => "from"
  | .outgoing => "to"

/-- A call as seen from one end: the other end, and where the calls stand in the
caller. -/
structure Call where
  item : CallItem
  sites : List Range
deriving DecidableEq, Repr

namespace Call

def decode? (direction : CallDirection) (v : Json) : Option Call := do
  let v ← v.record? [direction.member, "fromRanges"]
  let item ← v.field? CallItem.decode? direction.member
  let sites ← v.field? (Json.list? Range.decode?) "fromRanges"
  some ⟨item, sites⟩

def toJson (direction : CallDirection) (c : Call) : Json :=
  Json.ofMembers [(direction.member, c.item.toJson),
    ("fromRanges", .ofList Range.toJson c.sites)]

end Call
end CodeIntel
