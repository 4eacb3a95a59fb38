import CodeIntel.Proofs.Lookup.Searching
import CodeIntel.Proofs.Report.References
import CodeIntel.Proofs.Tool.Program

/-!
# Finding references

The tool that finds references asks the server about each candidate and reads
the files that the answers name. Of the locations that it is told it reports
each place once.
-/

namespace CodeIntel
namespace Tool

variable {σ : Type}

def documentText (c : Client σ) (uri : Url) : Option String :=
  (c.text uri.toPath).toOption

theorem mapM_referenceSection (files : UrlMap (List Range)) (c : Client σ) :
    files.mapM referenceSection c = (.ok ((files.map fun file =>
      FileSection.ofRanges (documentText c file.1) referenceContext file).map
        FileSection.text), c) := by
  rw [← List.mapM'_eq_mapM]
  induction files with
  | nil =>
      rfl
  | cons file rest ih =>
      rw [List.mapM'_cons, referenceSection, bind_assoc, get_bind_apply,
        pure_bind, bind_apply, ih, List.map_cons, List.map_cons,
        FileSection.text_ofRanges]
      rfl

theorem references_of_found {symbol : String} {c after : Client σ}
    {found : List Location}
    (hoffered : c.capabilities.supportsReferenceLookup = true)
    (hfound : Lookup.references symbol c = (.ok found, after)) :
    references symbol c =
      (.ok ((ReferenceReport.ofLocations (documentText after) referenceContext
        found).text symbol), after) := by
  have hasked : ask (Lookup.references symbol) c = (.ok found, after) :=
    ask_eq_ok.mpr hfound
  rw [references, get_bind_apply, require, if_pos hoffered, pure_bind,
    bind_apply, hasked]
  cases found with
  | nil =>
      rfl
  | cons l rest =>
      dsimp only
      rw [List.isEmpty_cons, if_neg Bool.false_ne_true, bind_apply,
        mapM_referenceSection]
      rfl

/-- Each place that the server tells for a candidate is reported once, in the
section of its document, and nothing else is. The number in the headline is the
sum of those in the sections, and that of the places that they list. Sections
ascend by the texts of their URLs, and the places within one by line and column;
so do the printed places, unless a coordinate is the last 32-bit number. A file
that cannot be read loses its excerpts, and nothing but them. -/
theorem references_conserve_places {symbol : String} {c searched : Client σ}
    {response : Option WorkspaceSymbols}
    (hoffered : c.capabilities.supportsReferenceLookup = true)
    (hsearch : Client.workspaceSymbols symbol c = (.ok response, searched)) :
    let told := (Lookup.located (Lookup.answers Lookup.referencesAt
      (Lookup.matching symbol response) searched)).map Prod.snd
    ∃ (report : ReferenceReport) (after : Client σ),
      references symbol c = (.ok (report.text symbol), after) ∧
      report.Conserves (told.map Lookup.startKey) ∧
      ∀ s ∈ report.sections,
        s.excerpts = FileSection.excerptsAt (documentText after s.uri) s.starts
          referenceContext := by
  intro told
  obtain ⟨after, hfound⟩ := Lookup.references_of_search hsearch
  let found := Lookup.firsts Lookup.startKey told
  refine ⟨.ofLocations (documentText after) referenceContext found, after,
    references_of_found hoffered hfound, ?_, ?_⟩
  · have hdistinct := Lookup.nodup_map_firsts Lookup.startKey told
    exact (ReferenceReport.conserves_ofLocations hdistinct).congr fun _ =>
      Lookup.mem_map_firsts
  · exact List.forall_mem_map.mpr fun _ _ => rfl

/-! # Two small answers -/

def placeIn (uri : String) (line column : Nat) : Location :=
  ⟨⟨uri⟩, ⟨⟨line, column⟩, ⟨line, column⟩⟩⟩

section Uses

variable (uses : List Location)

/-- A server that knows one symbol, and tells the same uses of it each time. -/
def usesAnswer : String → Json → Outcome
  | "workspace/symbol", _ =>
    .ok (.ofList SymbolInformation.toJson [Lookup.runFunction])
  | _, _ => .ok (.ofList Location.toJson uses)

theorem isReadable_usesAnswer (method : String) (params : Json) :
    Message.IsReadable (usesAnswer uses method params) := by
  unfold usesAnswer
  split
  · exact Message.isReadable_ok _
  · exact Message.isReadable_ok _

def usesClient : Client Unit :=
  { Client.twoLines with
    peer := .answering (usesAnswer uses)
    capabilities := .ofInitializeResult (.ofMembers
      [("capabilities", .ofMembers
        [("referencesProvider", .bool true),
          ("workspaceSymbolProvider", .bool true)])]) }

theorem offered_usesClient :
    (usesClient uses).capabilities.supportsReferenceLookup = true := by
  show Capabilities.supportsReferenceLookup (.ofInitializeResult _) = true
  decide

theorem isServed_usesClient : (usesClient uses).IsServed (usesAnswer uses) :=
  ⟨⟨rfl, rfl⟩, rfl, rfl, rfl, Nat.le_refl 0, List.forall_mem_nil _⟩

theorem workspaceSymbols_usesClient : ∃ searched,
    Client.workspaceSymbols "run" (usesClient uses) =
      (.ok (some (.flat [Lookup.runFunction])), searched) ∧
    Client.ServesAlike (usesAnswer uses) (usesClient uses) searched :=
  ⟨_, (isServed_usesClient uses).request_apply (isReadable_usesAnswer uses)
      Request.workspaceSymbols _,
    (isServed_usesClient uses).called_alike _ _⟩

variable {uses}

/-- What the server tells is what it was given to tell, if that can be read
again. -/
theorem told_usesClient {searched : Client Unit}
    (hread : Request.references.decode? (.ofList Location.toJson uses) =
      some (some uses))
    (h : Client.ServesAlike (usesAnswer uses) (usesClient uses) searched) :
    (Lookup.located (Lookup.answers Lookup.referencesAt
      (Lookup.matching "run" (some (.flat [Lookup.runFunction]))) searched)).map
      Prod.snd =
        uses := by
  have hmatching : Lookup.matching "run" (some (.flat [Lookup.runFunction])) =
      [.ofInformation Lookup.runFunction] := by
    decide
  have hpath : Lookup.runFunction.location.uri.toPath = Client.smallFile :=
    Lookup.path_sharedPlace
  have hasked :
      (Lookup.askAbout Lookup.referencesAt (.ofInformation Lookup.runFunction)
      searched).1 = .ok uses := by
    rw [Lookup.askAbout, Lookup.referencesAt_eq_askFor,
      h.served.askFor_fst (isReadable_usesAnswer uses), h.opens]
    show ((Client.openFile Lookup.runFunction.location.uri.toPath
      (usesClient uses)).1.bind _).map _ = _
    rw [hpath,
      Client.openFile_smallFile (c := usesClient uses) ⟨rfl, rfl⟩ rfl rfl]
    show (Request.references.read (.ok (.ofList Location.toJson uses))).map _ =
      _
    rw [Request.read, hread]
    rfl
  rw [hmatching, Lookup.answers, hasked]
  simp [Lookup.located, Lookup.answers, Except.toOption]

end Uses

/-- Uses in two documents, one of which does not exist. One of them is told
twice. -/
def twoDocuments : List Location :=
  [placeIn "file:///b" 0 4, placeIn "file:///a" 1 0, placeIn "file:///a" 0 2,
    placeIn "file:///a" 1 0]

def threePlaces : List (Url × Position) :=
  [(⟨"file:///a"⟩, ⟨0, 2⟩), (⟨"file:///a"⟩, ⟨1, 0⟩), (⟨"file:///b"⟩, ⟨0, 4⟩)]

/-- Of four locations in two documents that the server tells, two are the same:
three places are reported. -/
theorem references_in_two_documents : ∃ searched : Client Unit,
    (usesClient twoDocuments).capabilities.supportsReferenceLookup = true ∧
    Client.workspaceSymbols "run" (usesClient twoDocuments) =
      (.ok (some (.flat [Lookup.runFunction])), searched) ∧
    ∃ (report : ReferenceReport) (after : Client Unit),
      references "run" (usesClient twoDocuments) =
        (.ok (report.text "run"), after) ∧
      report.total = 3 ∧ report.places.Perm threePlaces := by
  have hoffered := offered_usesClient twoDocuments
  obtain ⟨searched, hsearch, halike⟩ := workspaceSymbols_usesClient twoDocuments
  obtain ⟨report, after, hreferences, hconserves, -⟩ :=
    references_conserve_places hoffered hsearch
  rw [told_usesClient (by decide) halike] at hconserves
  have hdistinct :
      (twoDocuments.map Lookup.startKey).eraseDups.Perm threePlaces := by
    decide
  have hplaces : report.places.Perm threePlaces := by
    rw [List.perm_ext_iff_of_nodup hconserves.once (by decide)]
    intro place
    rw [hconserves.listed, ← List.mem_eraseDups, hdistinct.mem_iff]
  refine ⟨searched, hoffered, hsearch, report, after, hreferences, ?_, hplaces⟩
  rw [hconserves.total_places, ← report.length_places, hplaces.length_eq]
  rfl

def lastPlaces : List Location :=
  [placeIn "file:///a" 0 0, placeIn "file:///a" 0 4294967295,
    placeIn "file:///a" 4294967295 0]

/-- The last column and the last line have no number: they are printed as zero,
and the printed places do not ascend. -/
theorem printed_places_descend : ∃ searched : Client Unit,
    Client.workspaceSymbols "run" (usesClient lastPlaces) =
      (.ok (some (.flat [Lookup.runFunction])), searched) ∧
    ∃ (report : ReferenceReport) (after : Client Unit),
      references "run" (usesClient lastPlaces) =
        (.ok (report.text "run"), after) ∧
      report.sections.map FileSection.printed = [[⟨1, 1⟩, ⟨1, 0⟩, ⟨0, 1⟩]] ∧
      ¬ ∀ s ∈ report.sections, s.printed.Pairwise fun p q =>
        p.compare q = .lt := by
  obtain ⟨searched, hsearch, halike⟩ := workspaceSymbols_usesClient lastPlaces
  obtain ⟨after, hfound⟩ := Lookup.references_of_search hsearch
  rw [told_usesClient (by decide) halike] at hfound
  have hprinted (content : Url → Option String) :
      (ReferenceReport.ofLocations content referenceContext
        (Lookup.firsts Lookup.startKey lastPlaces)).sections.map
        FileSection.printed =
          [[⟨1, 1⟩, ⟨1, 0⟩, ⟨0, 1⟩]] := by
    rw [ReferenceReport.ofLocations, List.map_map]
    rfl
  refine ⟨searched, hsearch, _, after,
    references_of_found (offered_usesClient lastPlaces) hfound, hprinted _, ?_⟩
  intro hascending
  have hsections := List.forall_mem_map.mpr hascending
  rw [hprinted] at hsections
  exact absurd hsections (by decide)

end Tool
end CodeIntel
