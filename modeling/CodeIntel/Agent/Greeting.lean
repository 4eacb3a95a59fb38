import CodeIntel.Json.Fields

/-!
# Greetings

An agent greets us with the version of the protocol that it speaks, with what it
is able to do, and with its name. Only the version decides anything; the rest
must have its shape.
-/

namespace CodeIntel
namespace AgentGreeting

def allMembers? (decode : Json → Option α) : Json → Option Unit
  | .obj members =>
    if members.all fun (_, v) => (decode v).isSome then some () else none
  | _ => none

def abilities? (v : Json) : Option Unit := do
  v.object?
  let _ ← v.optional? (allMembers? Json.object?) "experimental"
  let _ ← v.optional? (flagIn? "listChanged") "roots"
  let _ ← v.optional? Json.object? "sampling"
  let _ ← v.optional? (flagIn? "schemaValidation") "elicitation"
where
  /-- An object with a flag that may be missing. -/
  flagIn? (name : String) (v : Json) : Option Unit := do
    v.object?
    let _ ← v.optional? Json.bool? name

def icon? (v : Json) : Option Unit := do
  let _ ← v.field? Json.str? "src"
  let _ ← v.optional? Json.str? "mimeType"
  let _ ← v.optional? (Json.list? Json.str?) "sizes"

def product? (v : Json) : Option Unit := do
  let _ ← v.field? Json.str? "name"
  let _ ← v.optional? Json.str? "title"
  let _ ← v.field? Json.str? "version"
  let _ ← v.optional? (Json.list? icon?) "icons"
  let _ ← v.optional? Json.str? "websiteUrl"

def version? (params : Json) : Option String := do
  let version ← params.field? Json.str? "protocolVersion"
  params.field? abilities? "capabilities"
  params.field? product? "clientInfo"
  some version

def latestVersion : String := "2025-03-26"

/-- The version that both sides speak: the earlier one of theirs and ours. -/
def commonVersion (theirs : String) : String :=
  if theirs < latestVersion then theirs else latestVersion

end AgentGreeting
end CodeIntel
