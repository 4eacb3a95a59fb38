import CodeIntel.Json.Fields
import CodeIntel.Json.Reader

/-!
# Prepared answers

What the scripted server answers to a method, by the position that it is asked
about, by the document, or in any case. The closest of them wins, and null
stands for none.
-/

namespace CodeIntel

namespace Json

/-- The member or the item that a path of names leads to; items go by their
numbers. -/
def follow? : List String → Json → Option Json
  | [], v => some v
  | name :: rest, .obj members => (lookup name members).bind (follow? rest)
  | name :: rest, .arr items =>
    match items.zipIdx.find? fun (_, i) => toString i = name with
    | some (v, _) => follow? rest v
    | none => none
  | _ :: _, _ => none

def map? (decode : Json → Option α) : Json → Option (List (String × α))
  | .obj members => members.mapM fun (name, v) => (decode v).map (name, ·)
  | _ => none

def default? (decode : Json → Option α) (otherwise : α) (name : String)
    (v : Json) : Option α :=
  match v.get? name with
  | none => some otherwise
  | some m => decode m

end Json

namespace Mock

structure Fixture where
  responses : List (String × Json) := []
  byUri : List (String × List (String × Json)) := []
  byPosition : List (String × List (String × Json)) := []

namespace Fixture

def decode? (v : Json) : Option Fixture := do
  let v ← v.recordWith? [] ["responses", "byUri", "byPosition"]
  let responses ← v.default? (Json.map? Json.any?) [] "responses"
  let byUri ← v.default? (Json.map? (Json.map? Json.any?)) [] "byUri"
  let byPosition ← v.default? (Json.map? (Json.map? Json.any?)) [] "byPosition"
  some ⟨responses, byUri, byPosition⟩

def parse? (text : String) : Option Fixture :=
  (Json.parse? text).bind decode?

def under? (name : String) (entries : List (String × α)) : Option α :=
  (entries.find? fun e => e.1 = name).map Prod.snd

def document? (params : Json) : Option String :=
  (params.follow? ["textDocument", "uri"]).bind Json.str?

/-- Document, line and character that a request is about, as the key of an
answer. A request about an item is about the place where the item is
declared. -/
def positionKey? (params : Json) : Option String := do
  let (uri, position) ← match params.get? "item" with
    | some item =>
      do some (← item.get? "uri", ← item.follow? ["selectionRange", "start"])
    | none =>
      do some (← params.follow? ["textDocument", "uri"],
        ← params.get? "position")
  let uri ← uri.str?
  let line ← position.field? Json.u64? "line"
  let character ← position.field? Json.u64? "character"
  some s!"{uri}:{line}:{character}"

def answer (f : Fixture) (method : String) (params : Json) : Json :=
  let atPosition :=
    do (← under? method f.byPosition) |> under? (← positionKey? params)
  let inDocument := do (← under? method f.byUri) |> under? (← document? params)
  ((atPosition.or inDocument).or (under? method f.responses)).getD .null

end Fixture
end Mock
end CodeIntel
