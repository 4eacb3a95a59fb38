import CodeIntel.Capabilities

/-!
# Which features are offered

The first answer of a server declares its features, and a feature is listed as
offered iff it is declared with a value that is not null. That is the rule for a
feature that needs a value. For one that is offered as soon as it is declared it
is a different rule exactly where null is declared.
-/

namespace CodeIntel
namespace Capabilities

/-- The first answer of a server has a member under a key of its
capabilities. -/
def Declares (result : Json) (key : String) (value : Json) : Prop :=
  ∃ members declared, result = .obj members ∧
    Json.lookup "capabilities" members = some (.obj declared) ∧
    Json.lookup key declared = some value

def IsOffered (c : Capabilities) (name : String) : Prop :=
  (name, true) ∈ c.supportList

/-! # The features by name and key -/

/-- A feature, the name under which it is listed and the key under which it is
declared. -/
structure Entry where
  feature : Feature
  name : String
  key : String

def valued : List Entry :=
  [⟨.definition, "gotoDefinition", "definitionProvider"⟩,
    ⟨.references, "references", "referencesProvider"⟩,
    ⟨.hover, "hover", "hoverProvider"⟩,
    ⟨.documentSymbol, "documentSymbols", "documentSymbolProvider"⟩,
    ⟨.callHierarchy, "callHierarchy", "callHierarchyProvider"⟩,
    ⟨.workspaceSymbol, "workspaceSymbols", "workspaceSymbolProvider"⟩]

def plain : List Entry :=
  [⟨.rename, "rename", "renameProvider"⟩,
    ⟨.codeAction, "codeActions", "codeActionProvider"⟩,
    ⟨.signatureHelp, "signatureHelp", "signatureHelpProvider"⟩,
    ⟨.codeLens, "codeLens", "codeLensProvider"⟩,
    ⟨.completion, "completion", "completionProvider"⟩]

theorem member_eq_key : ∀ e ∈ valued ++ plain, e.feature.member = e.key := by
  decide

theorem exists_entry (f : Feature) : ∃ e ∈ valued ++ plain, e.feature = f := by
  cases f <;> simp [valued, plain]

theorem isOffered_iff_supports (c : Capabilities) :
    ∀ e ∈ valued ++ plain, c.IsOffered e.name ↔
    c.supports e.feature = true := by
  simp [valued, plain, IsOffered, supportList]

theorem isOffered_definition (c : Capabilities) : c.IsOffered "definition" ↔
    c.IsOffered "gotoDefinition" ∧ c.IsOffered "workspaceSymbols" := by
  simp [IsOffered, supportList, supportsDefinitionLookup]

theorem supportList_congr {c c' : Capabilities}
    (h : ∀ f, c.supports f = c'.supports f) :
    c.supportList = c'.supportList := by
  simp only [supportList, supportsDefinitionLookup, h]

/-! # What is declared -/

section Declared

variable {result : Json} {key : String} {value : Json}

theorem get?_eq_some_iff {name : String} {json : Json} :
    json.get? name = some value ↔ ∃ members, json = .obj members ∧
    Json.lookup name members = some value := by
  cases json with
  | obj members =>
      simp [Json.get?]
  | null | bool | int | real | str | arr =>
      simp [Json.get?]

theorem get?_raw_eq_some_iff :
    (ofInitializeResult result).raw.get? key = some value ↔
    Declares result key value := by
  have hraw : (ofInitializeResult result).raw.get? key =
      (result.get? "capabilities").bind (Json.get? key) := by
    rw [ofInitializeResult, Json.get]
    cases result.get? "capabilities" <;> rfl
  rw [hraw, Option.bind_eq_some_iff, Declares]
  simp only [get?_eq_some_iff]
  constructor
  · rintro ⟨capabilities, ⟨members, hresult, hmember⟩, declared, rfl, hkey⟩
    exact ⟨members, declared, hresult, hmember, hkey⟩
  · rintro ⟨members, declared, hresult, hmember, hkey⟩
    exact ⟨.obj declared, ⟨members, hresult, hmember⟩, declared, rfl, hkey⟩

theorem Declares.unique {other : Json} (h : Declares result key value)
    (h' : Declares result key other) : value = other := by
  have hboth :=
    (get?_raw_eq_some_iff.mpr h).symm.trans (get?_raw_eq_some_iff.mpr h')
  exact Option.some.inj hboth

end Declared

theorem hasValue_ofMember (member : Option Json) :
    (Presence.ofMember member).hasValue = true ↔ ∃ value, member = some value ∧
    value ≠ .null := by
  cases member with
  | none =>
      simp [Presence.ofMember, Presence.hasValue]
  | some value =>
      cases value <;> simp [Presence.ofMember, Presence.hasValue]

theorem supports_iff (result : Json) (f : Feature) :
    (ofInitializeResult result).supports f = true ↔
      ∃ value, Declares result f.member value ∧ value ≠ .null := by
  rw [supports, presence, hasValue_ofMember]
  simp only [get?_raw_eq_some_iff]

theorem isOffered_iff (result : Json) {e : Entry} (he : e ∈ valued ++ plain) :
    (ofInitializeResult result).IsOffered e.name ↔
      ∃ value, Declares result e.key value ∧ value ≠ .null := by
  rw [isOffered_iff_supports _ e he, supports_iff, member_eq_key e he]

theorem declared_iff (result : Json) (key : String) :
    ((∃ value, Declares result key value ∧ value ≠ .null) ↔
      ∃ value, Declares result key value) ↔ ¬ Declares result key .null := by
  constructor
  · intro h hnull
    rcases h.mpr ⟨.null, hnull⟩ with ⟨value, hvalue, hne⟩
    exact hne (hvalue.unique hnull)
  · intro hnull
    constructor
    · rintro ⟨value, hvalue, -⟩
      exact ⟨value, hvalue⟩
    · rintro ⟨value, hvalue⟩
      refine ⟨value, hvalue, ?_⟩
      rintro rfl
      exact hnull hvalue

theorem supports_congr {result other : Json}
    (h : ∀ e ∈ valued ++ plain, ∀ value, Declares result e.key value ↔
      Declares other e.key value) (f : Feature) :
    (ofInitializeResult result).supports f =
      (ofInitializeResult other).supports f := by
  rcases exists_entry f with ⟨e, he, rfl⟩
  rw [Bool.eq_iff_iff, supports_iff, supports_iff, member_eq_key e he]
  simp only [h e he]

/-- Each feature is offered iff it is declared with a value that is not null,
and a definition can be looked up by name iff both features that this takes are
offered. So a feature that needs no value is offered iff it is declared, unless
it is declared as null. The list of what is offered depends on nothing but what
is declared for these features. -/
theorem offered_iff_declared (result : Json) :
    let c := ofInitializeResult result
    (∀ e ∈ valued, c.IsOffered e.name ↔
      ∃ value, Declares result e.key value ∧ value ≠ .null) ∧
    (∀ e ∈ plain, (c.IsOffered e.name ↔
        ∃ value, Declares result e.key value ∧ value ≠ .null) ∧
      ((c.IsOffered e.name ↔ ∃ value, Declares result e.key value) ↔
        ¬ Declares result e.key .null)) ∧
    (c.IsOffered "definition" ↔ c.IsOffered "gotoDefinition" ∧
      c.IsOffered "workspaceSymbols") ∧
    ∀ other, (∀ e ∈ valued ++ plain, ∀ value,
      Declares result e.key value ↔ Declares other e.key value) →
        (ofInitializeResult other).supportList = c.supportList := by
  intro c
  refine ⟨fun e he => ?_, fun e he => ?_, isOffered_definition c,
    fun other hsame => ?_⟩
  · exact isOffered_iff result (List.mem_append_left _ he)
  · have hoffered := isOffered_iff result (List.mem_append_right _ he)
    refine ⟨hoffered, ?_⟩
    rw [hoffered]
    exact declared_iff result e.key
  · exact supportList_congr fun f => (supports_congr hsame f).symm

def nullAnswer : Json :=
  .ofMembers [("capabilities", .ofMembers [("hoverProvider", .null),
    ("renameProvider", .null), ("definitionProvider", .bool false),
    ("workspaceSymbolProvider", .empty)])]

/-- The name of the server makes no difference to what it offers. -/
theorem named_server_offers_the_same :
    (∀ e ∈ valued ++ plain, ∀ value, Declares nullAnswer e.key value ↔
      Declares (nullAnswer.set "serverInfo" (.ofMembers [("name", .str "ls")]))
        e.key value) ∧
    (ofInitializeResult (nullAnswer.set "serverInfo"
      (.ofMembers [("name", .str "ls")]))).supportList =
      (ofInitializeResult nullAnswer).supportList := by
  have hsame : ∀ e ∈ valued ++ plain, ∀ value, Declares nullAnswer e.key value ↔
      Declares (nullAnswer.set "serverInfo" (.ofMembers [("name", .str "ls")]))
        e.key value := by
    intro e _ value
    rw [← get?_raw_eq_some_iff, ← get?_raw_eq_some_iff]
    exact Iff.rfl
  exact ⟨hsame, (offered_iff_declared nullAnswer).2.2.2 _ hsame⟩

/-- A feature that needs no value is declared, and is not offered. -/
theorem null_is_not_offered :
    Declares nullAnswer "renameProvider" .null ∧
    ¬ (ofInitializeResult nullAnswer).IsOffered "rename" := by
  constructor
  · exact get?_raw_eq_some_iff.mp (by decide)
  · unfold IsOffered
    decide

end Capabilities
end CodeIntel
