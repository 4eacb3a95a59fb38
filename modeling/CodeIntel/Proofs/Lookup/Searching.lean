import CodeIntel.Lookup.Search
import CodeIntel.Proofs.Client.Serving
import CodeIntel.Proofs.Lookup.Innermost
import Mathlib.Data.List.Forall2

/-!
# Searching by name

A search asks about each candidate in turn and goes on whatever the answers are.
Of the locations that it is told it keeps the first one for each place, with the
candidate that it was told it for. A definition is then reported on each of
these whose file can be opened, so that only the search for the candidates
itself can fail.
-/

namespace CodeIntel
namespace Lookup

/-! # The first item for each key -/

section Firsts

variable {α κ : Type} [BEq κ]

/-- The first item for each key, in the order in which the keys first occur. -/
def firsts (key : α → κ) (items : List α) : List α :=
  (items.map key).eraseDups.filterMap fun k => items.find? fun a => key a == k

def newKeys (seen keys : List κ) : List κ :=
  (keys.filter fun k => !seen.contains k).eraseDups

theorem newKeys_nil (keys : List κ) : newKeys [] keys = keys.eraseDups := by
  simp [newKeys]

theorem newKeys_cons_of_seen {seen keys : List κ} {k : κ}
    (h : seen.contains k = true) :
    newKeys seen (k :: keys) = newKeys seen keys := by
  rw [newKeys, List.filter_cons, h]
  rfl

theorem newKeys_cons_of_new {seen keys : List κ} {k : κ}
    (h : seen.contains k = false) :
    newKeys seen (k :: keys) = k :: newKeys (k :: seen) keys := by
  rw [newKeys, List.filter_cons, h, Bool.not_false, if_pos rfl,
    List.eraseDups_cons, List.filter_filter, newKeys]
  simp only [List.contains_cons, Bool.not_or]

variable [LawfulBEq κ]

theorem new_of_mem_newKeys {seen keys : List κ} {k : κ}
    (h : k ∈ newKeys seen keys) :
    seen.contains k = false := by
  rw [newKeys, List.mem_eraseDups, List.mem_filter, Bool.not_eq_true'] at h
  exact h.2

theorem nodup_newKeys (seen keys : List κ) : (newKeys seen keys).Nodup := by
  induction keys generalizing seen with
  | nil =>
      exact List.Pairwise.nil
  | cons k rest ih =>
      cases hseen : seen.contains k with
      | true =>
          rw [newKeys_cons_of_seen hseen]
          exact ih seen
      | false =>
          rw [newKeys_cons_of_new hseen, List.nodup_cons]
          refine ⟨fun hk => ?_, ih (k :: seen)⟩
          have hnew := new_of_mem_newKeys hk
          rw [List.contains_cons, beq_self_eq_true, Bool.true_or] at hnew
          exact nomatch hnew

theorem map_firsts (key : α → κ) (items : List α) :
    (firsts key items).map key = (items.map key).eraseDups := by
  have hfound : ∀ k ∈ (items.map key).eraseDups,
      (items.find? fun a => key a == k).map key = some k := by
    intro k hk
    rcases List.mem_map.mp (List.mem_eraseDups.mp hk) with ⟨a, ha, hkey⟩
    cases hfind : items.find? fun a => key a == k with
    | none =>
        exact absurd (beq_iff_eq.mpr hkey) (List.find?_eq_none.mp hfind a ha)
    | some b =>
        have hb := List.find?_some hfind
        exact congrArg some (beq_iff_eq.mp hb)
  rw [firsts, List.map_filterMap, List.filterMap_congr hfound,
    List.filterMap_some]

theorem nodup_map_firsts (key : α → κ) (items : List α) :
    ((firsts key items).map key).Nodup := by
  rw [map_firsts, ← newKeys_nil]
  exact nodup_newKeys [] _

theorem mem_map_firsts {key : α → κ} {items : List α} {k : κ} :
    k ∈ (firsts key items).map key ↔ k ∈ items.map key := by
  rw [map_firsts, List.mem_eraseDups]

theorem filterMap_find?_cons {key : α → κ} {a : α} {keys : List κ}
    (h : ∀ k ∈ keys, k ≠ key a) (items : List α) :
    (keys.filterMap fun k => (a :: items).find? fun b => key b == k) =
      keys.filterMap fun k => items.find? fun b => key b == k := by
  apply List.filterMap_congr
  intro k hk
  rw [List.find?_cons_of_neg]
  simpa using (h k hk).symm

end Firsts

variable {α : Type}

theorem distinctFrom_eq (location : α → Location) (seen : List (Url × Position))
    (items : List α) : distinctFrom location seen items =
      (newKeys seen (items.map (startKey ∘ location))).filterMap
        fun k => items.find? fun a => (startKey ∘ location) a == k := by
  induction items generalizing seen with
  | nil =>
      rfl
  | cons a rest ih =>
      rw [distinctFrom, List.map_cons, ← Function.comp_apply (f := startKey)]
      generalize startKey ∘ location = key at ih ⊢
      cases hseen : seen.contains (key a) with
      | true =>
          have hkeys : ∀ k ∈ newKeys seen (rest.map key), k ≠ key a := by
            intro k hk heq
            rw [heq] at hk
            exact nomatch hseen.symm.trans (new_of_mem_newKeys hk)
          rw [newKeys_cons_of_seen hseen, filterMap_find?_cons hkeys, ← ih]
          rfl
      | false =>
          have hkeys :
              ∀ k ∈ newKeys (key a :: seen) (rest.map key), k ≠ key a := by
            intro k hk heq
            have hnew := new_of_mem_newKeys hk
            rw [heq, List.contains_cons, beq_self_eq_true, Bool.true_or] at hnew
            exact nomatch hnew
          -- `a` itself is the first item with its key, and no later key is
          -- looked for in it
          have hfound : ((a :: rest).find? fun b => key b == key a) = some a :=
            List.find?_cons_of_pos (beq_self_eq_true _)
          rw [newKeys_cons_of_new hseen, List.filterMap_cons, hfound]
          dsimp only
          rw [filterMap_find?_cons hkeys, ← ih]
          rfl

theorem distinct_eq_firsts (location : α → Location) (items : List α) :
    distinct location items = firsts (startKey ∘ location) items := by
  rw [distinct, distinctFrom_eq, newKeys_nil, firsts]

/-! # Asking about candidates -/

variable {σ : Type} {c c' : Client σ}

theorem attempt_apply (step : ClientM σ α) (c : Client σ) :
    attempt step c = (.ok (step c).1.toOption, (step c).2) := by
  simp only [attempt, tryCatch, tryCatchThe, MonadExceptOf.tryCatch,
    ExceptT.tryCatch, ExceptT.map, ExceptT.mk, bind, StateT.bind]
  cases step c with
  | mk r after =>
      cases r <;> rfl

section Asking

variable (ask : FilePath → Position → ClientM σ (List Location))

def askAbout (k : Candidate) : ClientM σ (List Location) :=
  ask k.location.uri.toPath k.location.range.start

/-- What a client is told about each candidate when it asks about them in turn;
nothing where it fails. -/
def answers :
    List Candidate → Client σ → List (Candidate × Option (List Location))
  | [], _ => []
  | k :: rest, c =>
    (k, (askAbout ask k c).1.toOption) :: answers rest (askAbout ask k c).2

/-- All locations that a client was told, each with the candidate that it was
told it for. -/
def located (told : List (Candidate × Option (List Location))) :
    List (Candidate × Location) :=
  told.flatMap fun e => (e.2.getD []).map (e.1, ·)

variable {ask}

theorem locate_apply (hask : ∀ path p c, Client.LiveOpening c (ask path p c).2)
    (candidates : List Candidate) (c : Client σ) :
    ∃ after, locate ask candidates c =
      (.ok (located (answers ask candidates c)), after) ∧
      c.LiveOpening after := by
  induction candidates generalizing c with
  | nil =>
      exact ⟨c, rfl, .refl c⟩
  | cons k rest ih =>
      obtain ⟨after, heq, hopening⟩ := ih (askAbout ask k c).2
      refine ⟨after, ?_, (hask _ _ c).trans hopening⟩
      rw [locate, bind_apply, attempt_apply]
      show (locate ask rest >>= fun more => pure _) (askAbout ask k c).2 = _
      rw [bind_apply, heq]
      rfl

theorem answers_of_consistent (h : Client.Consistent ask c)
    (candidates : List Candidate) :
    answers ask candidates c = candidates.map fun k =>
      (k, (askAbout ask k c).1.toOption) := by
  induction candidates generalizing c with
  | nil =>
      rfl
  | cons k rest ih =>
      have hsame : ∀ j, (askAbout ask j (askAbout ask k c).2).1.toOption =
          (askAbout ask j c).1.toOption :=
        fun j => h [(k.location.uri.toPath, k.location.range.start)] _ _
      have hrest : answers ask rest (askAbout ask k c).2 = _ := ih (h.next _ _)
      rw [answers, hrest, List.map_cons]
      simp only [hsame]

/-- Each candidate is told the same as if it were the only one. -/
theorem located_of_consistent (h : Client.Consistent ask c)
    (candidates : List Candidate) :
    located (answers ask candidates c) =
      candidates.flatMap fun k =>
        ((askAbout ask k c).1.toOption.getD []).map (k, ·) := by
  rw [answers_of_consistent h, located, List.flatMap_map]

end Asking

/-! # Reporting a definition -/

theorem enclosingRange_apply (path : FilePath) (l : Location) (c : Client σ) :
    ∃ range after, enclosingRange path l c = (.ok range, after) ∧
    c.LiveOpening after ∧
      (range = l.range ∨ range.contains l.range.start = true) := by
  rw [enclosingRange, get_bind_apply]
  split
  · rw [bind_apply, attempt_apply]
    refine ⟨_, _, rfl, Client.liveOpening_documentSymbols path c, ?_⟩
    cases (Client.documentSymbols path c).1.toOption with
    | none =>
        exact .inl rfl
    | some symbols =>
        cases hfound : enclosing l.range.start symbols with
        | none =>
            exact .inl (by simp [hfound])
        | some range =>
            exact .inr (by simp [hfound, contains_of_enclosing hfound])
  · exact ⟨l.range, c, rfl, .refl c, .inl rfl⟩

theorem sourceText_of_document {path : FilePath} {d : OpenDocument}
    (h : c.document? path = some d) :
    sourceText path c = (.ok d.content, c) := by
  rw [sourceText, get_bind_apply, Client.text, h]
  rfl

/-- What is reported on a location that was found for a candidate. The text is
that of the open document. -/
structure Describes (c : Client σ) (found : Candidate × Location)
    (d : FoundDefinition) : Prop where
  symbol : d.symbol = found.1.name
  kind : d.kind = found.1.kind
  container : d.container = found.1.container
  path : d.path = found.2.uri.toPath
  range : d.range = found.2.range ∨ d.range.contains found.2.range.start = true
  text : ∃ document, c.document? d.path = some document ∧
    d.text = Excerpt.numbered
      (Excerpt.span document.content d.range.start.line d.range.stop.line)
      (Position.ordinal d.range.start.line)

theorem Describes.later {found : Candidate × Location} {d : FoundDefinition}
    (h : Describes c found d) (hopening : c.Opening c') :
    Describes c' found d := by
  obtain ⟨document, hdocument, htext⟩ := h.text
  exact { h with text := ⟨document, hopening.document? hdocument, htext⟩ }

/-- A location is reported on iff its file can be opened. -/
theorem describe_cases (k : Candidate) (l : Location) (c : Client σ) :
    (c.canOpen l.uri.toPath = true ∧
      ∃ d after, describe k l c = (.ok d, after) ∧ c.LiveOpening after ∧
      Describes after (k, l) d) ∨
    (c.canOpen l.uri.toPath = false ∧
      ∃ f after, describe k l c = (.error f, after) ∧ c.LiveOpening after) := by
  have hopening := Client.liveOpening_openFile l.uri.toPath c
  unfold describe
  rw [bind_apply]
  cases hopen : Client.openFile l.uri.toPath c with
  | mk r opened =>
      rw [hopen] at hopening
      cases r with
      | error f =>
          exact .inr ⟨Client.not_canOpen_of_openFile hopen, f, opened, rfl,
            hopening⟩
      | ok uri =>
          obtain ⟨range, after, hrange, hlater, haround⟩ :=
            enclosingRange_apply l.uri.toPath l opened
          obtain ⟨document, hdocument⟩ := Client.document?_of_openFile hopen
          have hdocument' := hlater.toOpening.document? hdocument
          let text :=
            Excerpt.span document.content range.start.line range.stop.line
          let d : FoundDefinition :=
            ⟨k.name, k.kind, k.container, l.uri.toPath, range,
            Excerpt.numbered text (Position.ordinal range.start.line)⟩
          have hdescribes : Describes after (k, l) d :=
            ⟨rfl, rfl, rfl, rfl, haround, document, hdocument', rfl⟩
          refine .inl ⟨Client.canOpen_of_openFile hopen, d, after, ?_,
            hopening.trans hlater, hdescribes⟩
          dsimp only
          rw [bind_apply, hrange]
          dsimp only
          rw [bind_apply, sourceText_of_document hdocument']
          rfl

theorem describeAll_apply (found : List (Candidate × Location)) (c : Client σ) :
    ∃ reports after, describeAll found c = (.ok reports, after) ∧
    c.LiveOpening after ∧
      List.Forall₂ (Describes after) (found.filter fun e =>
        after.canOpen e.2.uri.toPath) reports := by
  induction found generalizing c with
  | nil =>
      exact ⟨[], c, rfl, .refl c, .nil⟩
  | cons e rest ih =>
      obtain ⟨k, l⟩ := e
      rcases describe_cases k l c with
        ⟨-, d, described, hd, hopening, hdescribes⟩ |
        ⟨hnot, f, described, hf, hopening⟩
      · obtain ⟨reports, after, heq, hlater, hreports⟩ := ih described
        refine ⟨d :: reports, after, ?_, hopening.trans hlater, ?_⟩
        · rw [describeAll, bind_apply, attempt_apply, hd]
          dsimp only
          rw [bind_apply, heq]
          rfl
        · -- the document that was described is still open in the end
          have hkept : after.canOpen l.uri.toPath = true := by
            obtain ⟨document, hdocument, -⟩ :=
              (hdescribes.later hlater.toOpening).text
            rw [hdescribes.path] at hdocument
            exact Client.canOpen_of_document? hdocument
          rw [List.filter_cons, if_pos hkept]
          exact .cons (hdescribes.later hlater.toOpening) hreports
      · obtain ⟨reports, after, heq, hlater, hreports⟩ := ih described
        refine ⟨reports, after, ?_, hopening.trans hlater, ?_⟩
        · rw [describeAll, bind_apply, attempt_apply, hf]
          dsimp only
          rw [bind_apply, heq]
          rfl
        · -- what can be opened in the end could have been opened now
          have hleft : ¬ after.canOpen l.uri.toPath = true := by
            intro hcan
            rw [(hopening.trans hlater).canOpen_before hcan] at hnot
            exact nomatch hnot
          rw [List.filter_cons, if_neg hleft]
          exact hreports

/-! # A server that answers at once -/

section Spares

variable {answer : String → Json → Outcome}

theorem spares_attempt {step : ClientM Unit α} (h : Client.Spares answer step) :
    Client.Spares answer (attempt step) := by
  intro c hserved
  rw [attempt_apply]
  exact h c hserved

theorem spares_locate {ask : FilePath → Position → ClientM Unit (List Location)}
    (h : ∀ path p, Client.Spares answer (ask path p))
    (candidates : List Candidate) :
    Client.Spares answer (locate ask candidates) := by
  induction candidates with
  | nil =>
      exact Client.spares_pure []
  | cons k rest ih =>
      exact (spares_attempt (h _ _)).bind fun _ =>
        ih.bind fun _ => Client.spares_pure _

theorem spares_sourceText (path : FilePath) :
    Client.Spares answer (sourceText path) := by
  refine Client.spares_get.bind fun c => ?_
  cases c.text path with
  | ok text =>
      exact Client.spares_pure text
  | error e =>
      exact Client.spares_throw _

variable (hreadable : ∀ method params,
    Message.IsReadable (answer method params))
include hreadable

theorem spares_enclosingRange (path : FilePath) (l : Location) :
    Client.Spares answer (enclosingRange path l) := by
  refine Client.spares_get.bind fun c => ?_
  split
  · have hasked :=
      spares_attempt (Client.spares_askDocument hreadable
        Request.documentSymbols path)
    exact hasked.bind fun _ => Client.spares_pure _
  · exact Client.spares_pure l.range

theorem spares_describe (k : Candidate) (l : Location) :
    Client.Spares answer (describe k l) := by
  refine (Client.spares_openFile l.uri.toPath).bind fun _ => ?_
  refine (spares_enclosingRange hreadable l.uri.toPath l).bind fun _ => ?_
  exact (spares_sourceText l.uri.toPath).bind fun _ => Client.spares_pure _

theorem spares_describeAll (found : List (Candidate × Location)) :
    Client.Spares answer (describeAll found) := by
  induction found with
  | nil =>
      exact Client.spares_pure []
  | cons e rest ih =>
      exact (spares_attempt (spares_describe hreadable e.1 e.2)).bind fun _ =>
        ih.bind fun _ => Client.spares_pure _

theorem spares_definitions (query : String) :
    Client.Spares answer (definitions query) := by
  have hasked : ∀ path p, Client.Spares answer (Client.definition path p) :=
    Client.spares_askFor hreadable Request.definition [] Definition.locations
  have hsearch : Client.Spares answer (candidates query) :=
    (Client.spares_request hreadable Request.workspaceSymbols _).bind fun _ =>
      Client.spares_pure _
  refine hsearch.bind fun candidates => ?_
  refine (spares_locate hasked candidates).bind fun _ => ?_
  exact (spares_describeAll hreadable _).bind fun _ => Client.spares_pure _

end Spares

/-! # Searches -/

theorem candidates_apply (query : String) (c : Client σ) :
    candidates query c =
      ((Client.workspaceSymbols query c).1.map (matching query),
      (Client.workspaceSymbols query c).2) := by
  rw [candidates, bind_apply]
  cases Client.workspaceSymbols query c with
  | mk r searched =>
      cases r <;> rfl

def referencesAt (path : FilePath) (p : Position) : ClientM σ (List Location) :=
  Client.references path p false

theorem referencesAt_eq_askFor :
    (referencesAt : FilePath → Position → ClientM σ (List Location)) =
      Client.askFor Request.references
        [("context", some (Members.referenceContext false))] (·.getD []) := rfl

theorem isEmpty_of_forall₂ {β : Type} {R : α → β → Prop} {items : List α}
    {others : List β} (h : List.Forall₂ R items others) :
    items.isEmpty = others.isEmpty := by
  cases h <;> rfl

section Searching

variable {query : String} {response : Option WorkspaceSymbols}
  {searched : Client σ}

theorem liveOpening_workspaceSymbols (query : String) (c : Client σ) :
    c.LiveOpening (Client.workspaceSymbols query c).2 :=
  Client.liveOpening_request Request.workspaceSymbols _ c

theorem definitions_of_search
    (h : Client.workspaceSymbols query c = (.ok response, searched)) :
    ∃ reports after,
      let found :=
  located (answers Client.definition (matching query response) searched)
      let openable := (firsts (startKey ∘ Prod.snd) found).filter
        fun e => after.canOpen e.2.uri.toPath
      definitions query c =
        (.ok (if openable.isEmpty then none else some reports), after) ∧
      List.Forall₂ (Describes after) openable reports ∧
      c.LiveOpening after := by
  have hcandidates := candidates_apply query c
  have hsearched := liveOpening_workspaceSymbols query c
  rw [h] at hcandidates hsearched
  obtain ⟨told, hlocate, htold⟩ :=
    locate_apply Client.liveOpening_definition
      (matching query response) searched
  obtain ⟨reports, after, hdescribe, hafter, hreports⟩ :=
    describeAll_apply (distinct Prod.snd
    (located (answers Client.definition (matching query response) searched)))
    told
  rw [distinct_eq_firsts] at hreports
  refine ⟨reports, after, ?_, hreports, (hsearched.trans htold).trans hafter⟩
  have hempty := isEmpty_of_forall₂ hreports
  rw [definitions, bind_apply, hcandidates]
  dsimp only [Except.map]
  rw [bind_apply, hlocate]
  dsimp only
  rw [bind_apply, hdescribe, hempty]
  rfl

theorem references_of_search
    (h : Client.workspaceSymbols query c = (.ok response, searched)) :
    ∃ after, references query c = (.ok (firsts startKey
      ((located (answers referencesAt (matching query response) searched)).map
        Prod.snd)),
      after) := by
  have hcandidates := candidates_apply query c
  rw [h] at hcandidates
  have hask : ∀ path p c,
      Client.LiveOpening c (referencesAt path p c : _ × Client σ).2 :=
    fun path p => Client.liveOpening_references path p false
  obtain ⟨told, hlocate, -⟩ :=
    locate_apply hask (matching query response) searched
  refine ⟨told, ?_⟩
  rw [references, bind_apply, hcandidates]
  show (locate referencesAt (matching query response) >>=
    fun found => _) searched = _
  rw [bind_apply, hlocate, ← Function.comp_id startKey, ← distinct_eq_firsts]
  rfl

end Searching

/-- If the search for the candidates fails, so do both searches, with its fault.
Otherwise neither fails. Of the locations that the server returned for the
candidates that match, in their order, the first one for each document and start
counts: a definition is reported on each of those whose file can be opened, with
the name, the kind and the container of its candidate, and these are all
reports; that there are none is the same as to find nothing. The references are
the first ones themselves.

As long as the connection holds, the files that can be opened are those that
could be opened before the search, and a server that is consistent returns for
each candidate what it would return if that candidate were the only one. -/
theorem search_keeps_first_occurrences {query : String} {c searched : Client σ}
    {outcome : Except ClientFault (Option WorkspaceSymbols)}
    (h : Client.workspaceSymbols query c = (outcome, searched)) :
    match outcome with
    | .error f =>
      definitions query c = (.error f, searched) ∧
        references query c = (.error f, searched)
    | .ok response =>
      let candidates := matching query response
      (∃ reports after,
        let found := located (answers Client.definition candidates searched)
        let openable := (firsts (startKey ∘ Prod.snd) found).filter
          fun e => after.canOpen e.2.uri.toPath
        definitions query c =
        (.ok (if openable.isEmpty then none else some reports), after) ∧
        List.Forall₂ (Describes after) openable reports ∧
        (after.connection.closed = false →
          ∀ path, after.canOpen path = c.canOpen path)) ∧
      (∃ after, references query c =
        (.ok (firsts startKey
          ((located (answers referencesAt candidates searched)).map Prod.snd)),
          after)) ∧
      ∀ ask, Client.Consistent ask searched →
      located (answers ask candidates searched) =
        candidates.flatMap fun k =>
          ((askAbout ask k searched).1.toOption.getD []).map (k, ·) := by
  cases outcome with
  | error f =>
      have hcandidates := candidates_apply query c
      rw [h] at hcandidates
      constructor
      · rw [definitions, bind_apply, hcandidates]
        rfl
      · rw [references, bind_apply, hcandidates]
        rfl
  | ok response =>
      obtain ⟨reports, after, hdefinitions, hreports, hopening⟩ :=
        definitions_of_search h
      refine ⟨⟨reports, after, hdefinitions, hreports, hopening.canOpen_eq⟩,
        references_of_search h, ?_⟩
      intro ask hconsistent
      exact located_of_consistent hconsistent _

/-! # Two symbols at one place -/

def sharedPlace : Location :=
  ⟨⟨"file:///a"⟩, ⟨⟨1, 0⟩, ⟨1, 1⟩⟩⟩

def runFunction : SymbolInformation :=
  ⟨"run", .functionKind, none, none, ⟨⟨"file:///a"⟩, ⟨⟨0, 0⟩, ⟨0, 1⟩⟩⟩, none⟩

def runMethod : SymbolInformation :=
  { runFunction with kind := .methodKind, containerName := some "Task" }

def runAnswer : String → Json → Outcome
  | "workspace/symbol", _ =>
    .ok (.ofList SymbolInformation.toJson [runFunction, runMethod])
  | _, _ => .ok (.ofList Location.toJson [sharedPlace])

theorem isReadable_runAnswer (method : String) (params : Json) :
    Message.IsReadable (runAnswer method params) := by
  unfold runAnswer
  split
  · exact Message.isReadable_ok _
  · exact Message.isReadable_ok _

def runClient : Client Unit :=
  { Client.twoLines with peer := .answering runAnswer }

theorem isServed_runClient : runClient.IsServed runAnswer :=
  ⟨⟨rfl, rfl⟩, rfl, rfl, rfl, Nat.le_refl 0, List.forall_mem_nil _⟩

theorem workspaceSymbols_runClient :
    ∃ searched, Client.workspaceSymbols "run" runClient =
    (.ok (some (.flat [runFunction, runMethod])), searched) ∧
    Client.ServesAlike runAnswer runClient searched :=
  ⟨_, isServed_runClient.request_apply isReadable_runAnswer
    Request.workspaceSymbols _, isServed_runClient.called_alike _ _⟩

theorem openFile_runClient :
    (Client.openFile Client.smallFile runClient).1 = .ok ⟨"file:///a"⟩ :=
  congrArg Prod.fst (Client.openFile_smallFile ⟨rfl, rfl⟩ rfl rfl)

theorem path_sharedPlace : sharedPlace.uri.toPath = Client.smallFile :=
  Client.toPath_smallDocument

theorem matching_run : matching "run" (some (.flat [runFunction, runMethod])) =
    [runFunction, runMethod].map Candidate.ofInformation := by
  decide

theorem askAbout_runClient {searched : Client Unit}
    (h : Client.ServesAlike runAnswer runClient searched) {r : Request α}
    (members : Members) {view : α → List Location}
    (hread : ∀ params, (r.read (runAnswer r.method params)).map view =
      .ok [sharedPlace])
    {k : Candidate} (hk : k.location.uri = sharedPlace.uri) :
    (askAbout (Client.askFor r members view) k searched).1 =
      .ok [sharedPlace] := by
  rw [askAbout, h.served.askFor_fst isReadable_runAnswer, h.opens, hk,
    path_sharedPlace, openFile_runClient]
  exact hread _

theorem located_runClient {searched : Client Unit}
    (h : Client.ServesAlike runAnswer runClient searched) {r : Request α}
    (members : Members) {view : α → List Location}
    {ask : FilePath → Position → ClientM Unit (List Location)}
    (hask : ask = Client.askFor r members view)
    (hread : ∀ params, (r.read (runAnswer r.method params)).map view =
      .ok [sharedPlace]) :
    Client.Consistent ask searched ∧
      ([runFunction, runMethod].map Candidate.ofInformation).flatMap
        (fun k => ((askAbout ask k searched).1.toOption.getD []).map (k, ·)) =
          [(.ofInformation runFunction, sharedPlace),
            (.ofInformation runMethod, sharedPlace)] := by
  subst hask
  constructor
  · exact h.served.consistent isReadable_runAnswer r members view
  · simp only [List.map_cons, List.map_nil, List.flatMap_cons, List.flatMap_nil]
    rw [askAbout_runClient h _ hread rfl, askAbout_runClient h _ hread rfl]
    rfl

theorem firsts_shared : firsts (startKey ∘ Prod.snd)
    [(Candidate.ofInformation runFunction, sharedPlace),
      (.ofInformation runMethod, sharedPlace)] =
        [(.ofInformation runFunction, sharedPlace)] := by
  decide

theorem canOpen_after_runClient {reports : Option (List FoundDefinition)}
    {after : Client Unit}
    (h : definitions "run" runClient = (.ok reports, after)) :
    after.canOpen sharedPlace.uri.toPath = true := by
  have halike :=
    spares_definitions isReadable_runAnswer "run" runClient isServed_runClient
  rw [h] at halike
  rw [halike.canOpen_eq, path_sharedPlace, Client.canOpen, openFile_runClient]
  rfl

/-- Two symbols with one name are defined at one place: the first one is
reported. -/
theorem first_of_two_symbols_counts : ∃ searched : Client Unit,
    Client.workspaceSymbols "run" runClient =
      (.ok (some (.flat [runFunction, runMethod])), searched) ∧
    Client.Consistent Client.definition searched ∧
    Client.Consistent referencesAt searched ∧
    (∃ d after, definitions "run" runClient = (.ok (some [d]), after) ∧
      Describes after (.ofInformation runFunction, sharedPlace) d) ∧
    ∃ after, references "run" runClient = (.ok [sharedPlace], after) := by
  obtain ⟨searched, heq, halike⟩ := workspaceSymbols_runClient
  obtain ⟨⟨reports, after, hdefinitions, hreports, -⟩, ⟨later, hreferences⟩,
        hconsistent⟩ :=
    search_keeps_first_occurrences heq
  obtain ⟨hdefined, hlocated⟩ :=
    located_runClient halike _ Client.definition_eq_askFor fun _ => rfl
  obtain ⟨hreferred, hlocated'⟩ :=
    located_runClient halike _ referencesAt_eq_askFor fun _ => rfl
  have hopenable : [(Candidate.ofInformation runFunction, sharedPlace)].filter
      (fun e => after.canOpen e.2.uri.toPath) =
      [(.ofInformation runFunction, sharedPlace)] := by
    rw [List.filter_cons, if_pos (canOpen_after_runClient hdefinitions),
      List.filter_nil]
  rw [hconsistent _ hdefined, matching_run, hlocated, firsts_shared, hopenable]
    at hdefinitions hreports
  rw [hconsistent _ hreferred, matching_run, hlocated'] at hreferences
  cases hreports with
  | cons hdescribes hnone =>
      cases hnone with
      | nil =>
          exact ⟨searched, heq, hdefined, hreferred,
            ⟨_, after, hdefinitions, hdescribes⟩, later, hreferences⟩

end Lookup
end CodeIntel
