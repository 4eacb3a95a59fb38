import CodeIntel.Json.Basic

/-!
# What a server can do

A server answers the first request with its capabilities, one member per
feature. A member that is missing, one that is null and one that has a value are
told apart; a feature is offered if its member has a value, whatever that value
is.
-/

namespace CodeIntel

inductive Presence where
  | absent
  | null
  | value (v : Json)
deriving DecidableEq, Repr

namespace Presence

def ofMember : Option Json → Presence
  | none => .absent
  | some .null => .null
  | some v => .value v

def hasValue : Presence → Bool
  | .value _ => true
  | _ => false

end Presence

inductive Feature where
  | definition
  | references
  | hover
  | documentSymbol
  | callHierarchy
  | workspaceSymbol
  | rename
  | codeAction
  | signatureHelp
  | codeLens
  | completion
deriving DecidableEq, Repr

namespace Feature

def all : List Feature :=
  [.definition, .references, .hover, .documentSymbol, .callHierarchy,
    .workspaceSymbol, .rename, .codeAction, .signatureHelp, .codeLens,
    .completion]

def name : Feature → String
  | .definition => "definition"
  | .references => "references"
  | .hover => "hover"
  | .documentSymbol => "documentSymbol"
  | .callHierarchy => "callHierarchy"
  | .workspaceSymbol => "workspaceSymbol"
  | .rename => "rename"
  | .codeAction => "codeAction"
  | .signatureHelp => "signatureHelp"
  | .codeLens => "codeLens"
  | .completion => "completion"

def member (f : Feature) : String :=
  f.name ++ "Provider"

end Feature

structure Capabilities where
  raw : Json
  serverName : Option String
  serverVersion : Option String
deriving DecidableEq, Repr

namespace Capabilities

def ofInitializeResult (result : Json) : Capabilities :=
  let info (name : String) :=
    ((result.get "serverInfo").get? name).bind Json.str?
  {
    raw := result.get "capabilities", serverName :=
    info "name", serverVersion := info "version" }

def unknown : Capabilities :=
  ofInitializeResult .null

def presence (c : Capabilities) (f : Feature) : Presence :=
  .ofMember (c.raw.get? f.member)

def supports (c : Capabilities) (f : Feature) : Bool :=
  (c.presence f).hasValue

/-- Looking up a definition by name takes a search for symbols first. -/
def supportsDefinitionLookup (c : Capabilities) : Bool :=
  c.supports .definition && c.supports .workspaceSymbol

/-- Looking up references by name takes a search for symbols first. -/
def supportsReferenceLookup (c : Capabilities) : Bool :=
  c.supports .references && c.supports .workspaceSymbol

/-- The features that are offered, by the names under which they are listed.
Every server takes edited texts and may report diagnostics. -/
def supportList (c : Capabilities) : List (String × Bool) :=
  [("gotoDefinition", c.supports .definition),
    ("references", c.supports .references),
    ("hover", c.supports .hover),
    ("documentSymbols", c.supports .documentSymbol),
    ("callHierarchy", c.supports .callHierarchy),
    ("workspaceSymbols", c.supports .workspaceSymbol),
    ("rename", c.supports .rename),
    ("codeActions", c.supports .codeAction),
    ("signatureHelp", c.supports .signatureHelp),
    ("codeLens", c.supports .codeLens), ("completion", c.supports .completion),
    ("definition", c.supportsDefinitionLookup), ("edit", true),
    ("diagnostics", true)]

end Capabilities
end CodeIntel
