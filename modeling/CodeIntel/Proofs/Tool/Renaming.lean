import CodeIntel.Proofs.Edit.Grouping
import CodeIntel.Proofs.Tool.Updates

/-!
# Renaming

A symbol is renamed by the edits that the server answers with. Until the texts
of all files are worked out, whatever fails leaves files and open documents as
they were, and the server is told of no change. If the URLs name different files
and the new texts can be written and told, each file, its document and what the
server was told last agree on the new text.

Edits are grouped by URL and not by file. Of several URLs that name one file the
last one counts, and what is addressed to the others is lost although the call
succeeds.
-/

namespace CodeIntel

/-- A URL that text edits are addressed to, with all of them. -/
def WorkspaceEdit.Affects (w : WorkspaceEdit) (file : Url × List TextEdit) :
    Prop :=
  file.1 ∈ w.addressed.map Prod.fst ∧ file.2 = editsTo file.1 w.addressed

theorem WorkspaceEdit.mem_grouped_iff_affects (w : WorkspaceEdit)
    (file : Url × List TextEdit) :
    file ∈ grouped w.addressed ↔ w.Affects file :=
  mem_grouped_iff

namespace Tool

variable {σ : Type} {c c' asked : Client σ} {p : FilePlace} {newName : String}
  {edit : WorkspaceEdit}

/-! # What a rename comes to -/

/-- The server has answered a rename with an edit; `asked` is the client as it
is then. -/
structure RenameAnswered (p : FilePlace) (newName : String) (c : Client σ)
    (edit : WorkspaceEdit) (asked : Client σ) : Prop where
  supported : c.capabilities.supports .rename = true
  named : (Text.trimmed newName).isEmpty = false
  answered : ∃ position, p.place.toPosition = .ok position ∧
    Client.rename (c.root.joinTo (.ofString p.file)) position
      (Text.trimmed newName) c = (.ok (some edit), asked)

theorem RenameAnswered.opening (h : RenameAnswered p newName c edit asked) :
    Client.Opening c asked := by
  obtain ⟨position, -, heq⟩ := h.answered
  have hopening :=
    Client.opening_rename (c.root.joinTo (.ofString p.file)) position
    (Text.trimmed newName) c
  rwa [heq] at hopening

theorem renameSymbol_answered (h : RenameAnswered p newName c edit asked) :
    match edit.files with
    | .error f => renameSymbol p newName c = (.error f, asked)
    | .ok files =>
      ∃ report : List FileUpdate → String, renameSymbol p newName c = (do
        let updates ← files.mapM prepareUpdate
        updates.forM fun u => writeAndSync u.path u.text
        pure (report updates) : ToolM σ String) asked := by
  obtain ⟨position, hposition, hanswer⟩ := h.answered
  obtain ⟨message, hstart⟩ : ∃ message, renameSymbol p newName c = (do
      let files ← liftExcept (renameFiles (some edit))
      if files.isEmpty then pure message
      else
        let updates ← files.mapM prepareUpdate
        updates.forM fun u => writeAndSync u.path u.text
        pure (Report.rename (Text.trimmed newName) (updates.map fun u =>
          (u.path, u.edits))) :
          ToolM σ String) asked := by
    refine ⟨?message, ?told⟩
    case told =>
      unfold renameSymbol
      rw [bind_apply, requireFeature_apply, h.supported]
      simp only [h.named, if_true, Bool.false_eq_true, if_false]
      rw [bind_apply, resolvePath_apply]
      simp only
      rw [bind_apply, toPosition_apply, hposition]
      simp only [Except.mapError]
      rw [bind_apply, ask_eq_ok.mpr hanswer]
  rw [hstart, bind_apply]
  show match edit.files with | .error f => _ | .ok files => _
  cases hfiles : edit.files with
  | error f =>
      simp only [renameFiles, hfiles]
      rfl
  | ok files =>
      simp only [renameFiles, hfiles]
      cases files with
      | nil =>
          exact ⟨fun _ => message, rfl⟩
      | cons file rest =>
          exact ⟨_, rfl⟩

/-- Either nothing but opening files is done, since the edit holds a file
operation or something stands in the way of a file, or all texts are worked out
and then saved. -/
theorem renameSymbol_cases (hcurrent : c.disk.HasCurrent)
    (h : RenameAnswered p newName c edit asked) :
    (∃ f c', renameSymbol p newName c = (.error f, c') ∧ Client.Opening c c' ∧
      (edit.HasOperation ∨ ∃ file, edit.Affects file ∧ Obstructed asked file)) ∨
    (∃ updates prepared, ¬ edit.HasOperation ∧
      List.Forall₂ (Fits asked) (WorkspaceEdit.grouped edit.addressed) updates ∧
      Preparing asked prepared ∧ AreOpen prepared updates ∧
      ∀ c', (∃ report, renameSymbol p newName c = (.ok report, c')) ↔
        updates.forM (fun u => writeAndSync u.path u.text) prepared =
          (.ok (), c')) := by
  have hopening := h.opening
  have hcurrent' : asked.disk.HasCurrent := by
    rw [hopening.disk]
    exact hcurrent
  have hrest := renameSymbol_answered h
  rcases edit.files_cases with ⟨hnone, hfiles⟩ | ⟨hop, f, hfiles⟩
  · rw [hfiles] at hrest
    obtain ⟨report, hrest⟩ := hrest
    rw [hrest, bind_apply]
    rcases prepareAll_cases hcurrent'
        (WorkspaceEdit.grouped edit.addressed) with
      ⟨updates, prepared, heq, hfits, hprepared, hopen⟩ |
      ⟨f, after, heq, hobstructed, hchange⟩
    · rw [heq]
      refine .inr ⟨updates, prepared, hnone, hfits, hprepared, hopen,
        fun c' => ?_⟩
      simp only
      rw [bind_apply]
      cases updates.forM (fun u => writeAndSync u.path u.text) prepared with
      | mk r after =>
          cases r with
          | ok told =>
              constructor
              · rintro ⟨text, htext⟩
                rw [← (Prod.mk.inj htext).2]
              · intro hsaved
                rw [← (Prod.mk.inj hsaved).2]
                exact ⟨report updates, rfl⟩
          | error f =>
              constructor
              · rintro ⟨text, htext⟩
                exact nomatch (Prod.mk.inj htext).1
              · intro hsaved
                exact nomatch (Prod.mk.inj hsaved).1
    · rw [heq]
      obtain ⟨file, hfile, hobstructed⟩ := hobstructed
      exact .inl ⟨f, after, rfl, hopening.trans hchange,
        .inr ⟨file, (edit.mem_grouped_iff_affects file).mp hfile, hobstructed⟩⟩
  · rw [hfiles] at hrest
    exact .inl ⟨f, asked, hrest, hopening, .inl hop⟩

/-! # The updates of one file -/

section Batch

variable {c : Client σ} {r : FilePath} {file : Url × List TextEdit}
  {files : UrlMap (List TextEdit)} {updates : List FileUpdate}

theorem fits_of_mem (hall : List.Forall₂ (Fits c) files updates)
    (hfile : file ∈ files) :
    ∃ u, Fits c file u := by
  induction hall with
  | nil =>
      exact nomatch hfile
  | @cons f u _ _ hfits _ ih =>
      rcases List.mem_cons.mp hfile with rfl | hmem
      · exact ⟨u, hfits⟩
      · exact ih hmem

theorem file_of_mem {u : FileUpdate}
    (hall : List.Forall₂ (Fits c) files updates) (hu : u ∈ updates) :
    ∃ f ∈ files, Fits c f u := by
  induction hall with
  | nil =>
      exact nomatch hu
  | @cons f _ _ _ hfits _ ih =>
      rcases List.mem_cons.mp hu with rfl | hmem
      · exact ⟨f, List.mem_cons_self, hfits⟩
      · obtain ⟨g, hg, hfit⟩ := ih hmem
        exact ⟨g, List.mem_cons_of_mem _ hg, hfit⟩

theorem Fits.real {u : FileUpdate} (h : Fits c file u) :
    ∃ r, c.disk.realPath file.1.toPath = .ok r := by
  obtain ⟨uri, hopens⟩ := h.opens
  obtain ⟨r, -, hreal, -⟩ := Client.opened_of_openFile (Prod.ext hopens rfl)
  exact ⟨r, hreal⟩

theorem updatesOf_eq_nil (hall : List.Forall₂ (Fits c) files updates)
    (hnone : ∀ f ∈ files, c.disk.realPath f.1.toPath ≠ .ok r) :
    updatesOf c.disk r updates = [] := by
  induction hall with
  | nil =>
      rfl
  | cons hfits _ ih =>
      rw [updatesOf_cons, hfits.path, if_neg (hnone _ List.mem_cons_self)]
      exact ih fun f hf => hnone f (List.mem_cons_of_mem _ hf)

theorem getLast?_updatesOf (hall : List.Forall₂ (Fits c) files updates)
    (hfiles : files.Ascending) (hfile : file ∈ files)
    (hreal : c.disk.realPath file.1.toPath = .ok r)
    (hlast : ∀ f ∈ files, file.1.text < f.1.text →
      c.disk.realPath f.1.toPath ≠ .ok r) :
    ∃ u, Fits c file u ∧ (updatesOf c.disk r updates).getLast? = some u := by
  induction hall with
  | nil =>
      exact nomatch hfile
  | @cons f u rest rest' hfits hrest ih =>
      obtain ⟨hbelow, hascending⟩ := List.pairwise_cons.mp hfiles
      rw [updatesOf_cons, hfits.path]
      rcases List.mem_cons.mp hfile with rfl | hmem
      · have hnone : updatesOf c.disk r rest' = [] := by
          apply updatesOf_eq_nil hrest
          intro g hg
          exact hlast g (List.mem_cons_of_mem _ hg) (hbelow g hg)
        rw [if_pos hreal, hnone]
        exact ⟨u, hfits, rfl⟩
      · obtain ⟨v, hv, hlater⟩ := ih hascending hmem fun g hg =>
          hlast g (List.mem_cons_of_mem _ hg)
        refine ⟨v, hv, ?_⟩
        split
        · rw [List.getLast?_cons, hlater]
          rfl
        · exact hlater

theorem updatesOf_eq_singleton (hall : List.Forall₂ (Fits c) files updates)
    (hfiles : files.Ascending) (hfile : file ∈ files)
    (hreal : c.disk.realPath file.1.toPath = .ok r)
    (honly : ∀ f ∈ files, f.1 ≠ file.1 → c.disk.realPath f.1.toPath ≠ .ok r) :
    ∃ u, Fits c file u ∧ updatesOf c.disk r updates = [u] := by
  induction hall with
  | nil =>
      exact nomatch hfile
  | @cons f u rest rest' hfits hrest ih =>
      obtain ⟨hbelow, hascending⟩ := List.pairwise_cons.mp hfiles
      have hne {g h : Url × List TextEdit} (hlt : g.1.text < h.1.text) :
          h.1 ≠ g.1 := by
        intro heq
        exact lt_irrefl _ (heq ▸ hlt)
      rw [updatesOf_cons, hfits.path]
      rcases List.mem_cons.mp hfile with rfl | hmem
      · have hnone : updatesOf c.disk r rest' = [] := by
          apply updatesOf_eq_nil hrest
          intro g hg
          exact honly g (List.mem_cons_of_mem _ hg) (hne (hbelow g hg))
        rw [if_pos hreal, hnone]
        exact ⟨u, hfits, rfl⟩
      · have hother : c.disk.realPath f.1.toPath ≠ .ok r :=
          honly f List.mem_cons_self (Ne.symm (hne (hbelow file hmem)))
        rw [if_neg hother]
        exact ih hascending hmem fun g hg => honly g (List.mem_cons_of_mem _ hg)

end Batch

/-! # All or nothing -/

/-- Files and open documents are as they were, and the server was told of no new
text. -/
structure Untouched (c c' : Client σ) : Prop where
  disk : c'.disk = c.disk
  sent : Connection.SaysNoChange c.connection c'.connection
  documents : ∀ r d, c.documents.table.find? r = some (.opened d) →
    c'.documents.table.find? r = some (.opened d)

/-- The version of a document; one that is not open yet has version 1 once it is
opened. -/
def versionAt (c : Client σ) (r : FilePath) : Nat :=
  (((c.documents.table.find? r).bind DocumentState.document?).map
    OpenDocument.version).getD 1

/-- A file, its document and what the server was told last agree on the text
that the edits make of the text before, and the version is one higher. -/
def Renamed (c c' : Client σ) (file : Url × List TextEdit) : Prop :=
  ∃ r old new d, c.disk.realPath file.1.toPath = .ok r ∧
    c.text file.1.toPath = .ok old ∧
    TextEdit.applyAll old file.2 = .ok new ∧
    c'.disk.readText file.1.toPath = .ok new ∧
    c'.documents.table.find? r = some (.opened d) ∧ d.content = new ∧
    d.version = versionAt c r + 1 ∧
    lastChange? d.uri c'.connection.wire =
      some (OpenDocument.wireVersion d.version, new)

/-- The URLs of an edit name different files. -/
def NamesDistinctFiles (disk : Disk) (edit : WorkspaceEdit) : Prop :=
  ∀ f g r, edit.Affects f → edit.Affects g → f.1 ≠ g.1 →
    disk.realPath f.1.toPath = .ok r → disk.realPath g.1.toPath ≠ .ok r

theorem version_of_opening (h : Client.Opening c c') {r : FilePath}
    {d : OpenDocument} (hd : c'.documents.table.find? r = some (.opened d)) :
    d.version = versionAt c r := by
  unfold versionAt
  rcases h.entry r with hsame | ⟨hnone, e, q, hopened, -, hload⟩
  · rw [← hsame, hd]
    rfl
  · obtain rfl : e = d := by simpa [hopened] using hd
    rw [hnone, Documents.version_of_load hload]
    rfl

theorem renamed_of_saved {prepared : Client σ} {files : UrlMap (List TextEdit)}
    {updates : List FileUpdate} {file : Url × List TextEdit}
    (hcurrent : c.disk.HasCurrent) (hnamed : c.documents.IsNamed)
    (hopening : Client.Opening c asked)
    (hall : List.Forall₂ (Fits asked) files updates) (hfiles : files.Ascending)
    (hfile : file ∈ files)
    (honly : ∀ f ∈ files, ∀ r, f.1 ≠ file.1 →
      c.disk.realPath file.1.toPath = .ok r →
      c.disk.realPath f.1.toPath ≠ .ok r)
    (hprepared : Preparing asked prepared) (hopen : AreOpen prepared updates)
    (hsaved : updates.forM (fun u => writeAndSync u.path u.text) prepared =
      (.ok (), c')) :
    Renamed c c' file := by
  have hdisk : asked.disk = c.disk := hopening.disk
  have hdisk' : prepared.disk = c.disk := hprepared.opening.disk.trans hdisk
  have hcurrent' : prepared.disk.HasCurrent := hdisk' ▸ hcurrent
  have hnamed' := (hopening.trans hprepared.opening).isNamed hnamed
  obtain ⟨v, hv⟩ := fits_of_mem hall hfile
  obtain ⟨r, hreal⟩ := hv.real
  obtain ⟨u, hfits, hsingle⟩ :=
    updatesOf_eq_singleton hall hfiles hfile hreal fun f hf hne =>
    hdisk ▸ honly f hf r hne (hdisk ▸ hreal)
  rw [hdisk] at hreal
  rw [hdisk, ← hdisk'] at hsingle
  -- the document of the file, as it was prepared, shows the text that the edits
  -- were applied to
  have hmem : u ∈ updates :=
    List.mem_of_mem_filter (hsingle ▸ List.mem_singleton.mpr rfl)
  obtain ⟨q, d, hq, hd⟩ := hopen u hmem
  rw [hfits.path, hdisk', hreal] at hq
  obtain rfl := Except.ok.inj hq
  obtain ⟨old, hold, happlies⟩ := hfits.applies
  rw [hopening.text hcurrent] at hold
  have hafter := saveAll_eq_ok hcurrent' hopen hsaved
  have hentry := hafter.entry hd
  have hwritten := hafter.written (q := file.1.toPath) (r := r) (hdisk' ▸ hreal)
    (by rw [hsingle]; exact List.cons_ne_nil _ _) old
  have htold := saveAll_told hcurrent' hopen hnamed' hsaved hd
  rw [hsingle] at hentry hwritten htold
  refine ⟨r, old, u.text, _, hreal, hold, happlies, hwritten, hentry, rfl,
    ?_, htold⟩
  show d.version + 1 = _
  rw [version_of_opening (hopening.trans hprepared.opening) hd]

/-- A rename with nothing in its way succeeds if the files can be written and
nothing keeps the server from being told. -/
theorem renameSymbol_of_free (hcurrent : c.disk.HasCurrent)
    (h : RenameAnswered p newName c edit asked) (hnone : ¬ edit.HasOperation)
    (hfree : ∀ file, edit.Affects file → ¬ Obstructed asked file)
    (hlive : asked.IsLive)
    (hwritable : ∀ file, edit.Affects file → ∀ text,
      ∃ disk, c.disk.writeText file.1.toPath text = .ok disk) :
    ∃ report c', renameSymbol p newName c = (.ok report, c') := by
  have hmem := edit.mem_grouped_iff_affects
  rcases renameSymbol_cases hcurrent h with
    ⟨f, c', heq, -, hwhy⟩ |
    ⟨updates, prepared, -, hall, hprepared, hopen, hsaved⟩
  · rcases hwhy with hop | ⟨file, haffects, hobstructed⟩
    · exact absurd hop hnone
    · exact absurd hobstructed (hfree file haffects)
  · have hdisk : prepared.disk = c.disk :=
      (h.opening.trans hprepared.opening).disk
    have hwritable' : ∀ u ∈ updates, ∃ disk,
        prepared.disk.writeText u.path u.text = .ok disk := by
      intro u hu
      obtain ⟨file, hfile, hfits⟩ := file_of_mem hall hu
      rw [hfits.path, hdisk]
      exact hwritable file ((hmem file).mp hfile) u.text
    obtain ⟨c', hsave⟩ :=
      saveAll_of_writable (hdisk ▸ hcurrent) hopen (hprepared.live hlive)
        hwritable'
    obtain ⟨report, hok⟩ := (hsaved c').mpr hsave
    exact ⟨report, c', hok⟩

/-! # A small rename -/

def canRename : Capabilities :=
  .ofInitializeResult
    (.obj [("capabilities", .obj [("renameProvider", .bool true)])])

def answeringOn (disk : Disk) (result : Json) : Client Unit :=
  { Client.twoLines with
    disk := disk
    capabilities := canRename
    peer :=
      { state := ()
        react := fun now message _ =>
          ([(now, .send (Json.ofMembers [("jsonrpc", .str "2.0"),
            ("id", message.get "id"), ("result", result)]))], ()) } }

def answering (result : Json) : Client Unit :=
  answeringOn Client.twoLines.disk result

/-- An edit of the first line, and one of the second line under another URL of
the same file. -/
def firstLine : Url × List TextEdit :=
  (⟨"file:///a"⟩, [⟨⟨⟨0, 0⟩, ⟨0, 1⟩⟩, "A"⟩])

def secondLine : Url × List TextEdit :=
  (⟨"file:///%61"⟩, [⟨⟨⟨1, 0⟩, ⟨1, 1⟩⟩, "B"⟩])

def changing (files : List (Url × List TextEdit)) : WorkspaceEdit :=
  ⟨some files, none, none⟩

def renameAnswer (disk : Disk) (edit : WorkspaceEdit) :
    Except ClientFault (Option WorkspaceEdit) × Client Unit :=
  Client.request Request.rename
    (Members.toJson (Members.place ⟨"file:///a"⟩ ⟨0, 0⟩ ++
    [("newName", some (.str "x"))]))
    ((answeringOn disk edit.toJson).withOpened Client.smallFile
      Client.smallDocument)

def smallPlace : FilePlace := ⟨"a", ⟨1, 1⟩⟩

/-- A disk has a file, which is opened as a certain document. -/
structure Holds (disk : Disk) (d : OpenDocument) : Prop where
  real : disk.realPath d.path = .ok d.path
  load : Documents.load disk d.path = .ok d

theorem holds_twoLines : Holds Client.twoLines.disk Client.smallDocument :=
  ⟨Client.twoLines_realPath, Client.load_twoLines⟩

section Small

variable {disk : Disk} {d : OpenDocument} {file : Url × List TextEdit}
  {new : String}

theorem renameAnswered_small (hholds : Holds disk Client.smallDocument)
    (hanswer : (renameAnswer disk edit).1.toOption = some (some edit)) :
    RenameAnswered smallPlace "x" (answeringOn disk edit.toJson) edit
      (renameAnswer disk edit).2 := by
  have hopen : Client.openFile Client.smallFile (answeringOn disk edit.toJson) =
      (.ok ⟨"file:///a"⟩,
        (answeringOn disk edit.toJson).withOpened Client.smallFile
          Client.smallDocument) :=
    Client.openFile_eq_withOpened (c := answeringOn disk edit.toJson)
      (d := Client.smallDocument) ⟨rfl, rfl⟩ hholds.real rfl hholds.load
  have hpath : FilePath.joinTo ⟨[47]⟩ (.ofString "a") = Client.smallFile := by
    decide
  have hname : Text.trimmed "x" = "x" := by
    decide
  have hresult : (renameAnswer disk edit).1 = .ok (some edit) := by
    cases heq : (renameAnswer disk edit).1 with
    | ok found =>
        rw [heq] at hanswer
        exact congrArg Except.ok (Option.some.inj hanswer)
    | error f =>
        rw [heq] at hanswer
        cases hanswer
  have hrequest : renameAnswer disk edit =
      (.ok (some edit), (renameAnswer disk edit).2) := by
    rw [← hresult]
  constructor
  · show canRename.supports .rename = true
    decide
  · decide
  · refine ⟨⟨0, 0⟩, by decide, ?_⟩
    show Client.rename (FilePath.joinTo ⟨[47]⟩ (.ofString "a")) ⟨0, 0⟩
      (Text.trimmed "x") (answeringOn disk edit.toJson) = _
    rw [hpath, hname, Client.rename, Client.askPlace, bind_apply, hopen]
    exact hrequest

section Answered

variable {result : Json} {asked : Client Unit}
  (h : RenameAnswered p newName (answeringOn disk result) edit asked)
  (hholds : Holds disk d)
include h hholds

theorem text_small (hcurrent : disk.HasCurrent) :
    asked.text d.path = .ok d.content := by
  rw [h.opening.text hcurrent, Client.text_of_unopened hholds.real rfl]
  exact Documents.readText_of_load hholds.load

theorem opens_small (hlive : asked.IsLive) :
    ∃ uri, (Client.openFile d.path asked).1 = .ok uri := by
  have hdisk : asked.disk = disk := h.opening.disk
  have hreal : asked.disk.realPath d.path = .ok d.path := hdisk ▸ hholds.real
  rcases h.opening.entry d.path with hsame | ⟨-, e, -, hopened, -, -⟩
  · exact ⟨_, congrArg Prod.fst
      (Client.openFile_eq_withOpened hlive hreal hsame (hdisk ▸ hholds.load))⟩
  · exact ⟨_, congrArg Prod.fst (Client.openFile_of_opened hreal hopened)⟩

theorem not_obstructed_small (hcurrent : disk.HasCurrent) (hlive : asked.IsLive)
    (hpath : file.1.toPath = d.path)
    (happly : TextEdit.applyAll d.content file.2 = .ok new) :
    ¬ Obstructed asked file := by
  apply Fits.not_obstructed (u := ⟨file.1.toPath, 0, new⟩)
  constructor
  case path =>
    rfl
  case opens =>
    rw [hpath]
    exact opens_small h hholds hlive
  case applies =>
    rw [hpath]
    exact ⟨d.content, text_small h hholds hcurrent, happly⟩

theorem obstructed_small (hcurrent : disk.HasCurrent) {f : ToolFault}
    (hpath : file.1.toPath = d.path)
    (happly : TextEdit.applyAll d.content file.2 = .error f) :
    Obstructed asked file := by
  apply Obstructed.rejected d.content f _ happly
  rw [hpath]
  exact text_small h hholds hcurrent

end Answered

theorem affects_small {files : UrlMap (List TextEdit)}
    (hgrouped : WorkspaceEdit.grouped edit.addressed = files)
    (file : Url × List TextEdit) :
    edit.Affects file ↔ file ∈ files := by
  rw [← hgrouped, edit.mem_grouped_iff_affects]

def FitsSmall (disk : Disk) (file : Url × List TextEdit) : Prop :=
  ∃ d new, Holds disk d ∧ file.1.toPath = d.path ∧
    TextEdit.applyAll d.content file.2 = .ok new

theorem small_is_free (hcurrent : disk.HasCurrent) {result : Json}
    {asked : Client Unit}
    (h : RenameAnswered p newName (answeringOn disk result) edit asked)
    (hlive : asked.IsLive) {files : UrlMap (List TextEdit)}
    (hgrouped : WorkspaceEdit.grouped edit.addressed = files)
    (hfiles : ∀ file ∈ files, FitsSmall disk file) :
    (∀ file, edit.Affects file → ¬ Obstructed asked file) ∧
    (∀ file, edit.Affects file → ∀ text,
      ∃ disk', (answeringOn disk result).disk.writeText file.1.toPath text =
        .ok disk') := by
  constructor
  · intro file haffects
    rcases hfiles file ((affects_small hgrouped file).mp haffects) with
      ⟨d, new, hholds, hpath, happly⟩
    exact not_obstructed_small h hholds hcurrent hlive hpath happly
  · intro file haffects text
    rcases hfiles file ((affects_small hgrouped file).mp haffects) with
      ⟨d, new, hholds, hpath, -⟩
    rw [hpath]
    exact Disk.exists_writeText (Documents.readText_of_load hholds.load) text

end Small

theorem not_hasOperation_changing (files : List (Url × List TextEdit)) :
    ¬ (changing files).HasOperation := by
  rintro ⟨changes, op, hsome, -⟩
  cases hsome

theorem firstLine_path : firstLine.1.toPath = Client.smallFile :=
  Client.toPath_smallDocument

theorem secondLine_path : secondLine.1.toPath = Client.smallFile := by
  decide

theorem firstLine_fits {disk : Disk}
    (hholds : Holds disk Client.smallDocument) :
    FitsSmall disk firstLine :=
  ⟨Client.smallDocument, "A\n2\n", hholds, firstLine_path, rfl⟩

theorem secondLine_fits : FitsSmall Client.twoLines.disk secondLine :=
  ⟨Client.smallDocument, "1\nB\n", holds_twoLines, secondLine_path, rfl⟩

def twoFiles : Disk where
  nodes := [([[97]], .file [49, 10, 50, 10]), ([[98]], .file [49, 10, 50, 10])]
  current := []
  current_plain := List.forall_mem_nil _

def otherDocument : OpenDocument :=
  ⟨⟨[47, 98]⟩, ⟨"file:///b"⟩, "plaintext", 1, "1\n2\n"⟩

theorem twoFiles_current : twoFiles.HasCurrent := by
  intro front hfront
  rw [List.prefix_nil.mp hfront]
  exact Disk.node?_nil _

theorem holds_of_locate {disk : Disk} {d : OpenDocument}
    (place : List (List UInt8))
    (hlocate : disk.locate d.path = .ok (.found place (.file [49, 10, 50, 10])))
    (hplace : FilePath.ofComponents place = d.path)
    (huri : Url.ofPath? d.path = some d.uri)
    (hnew : d = ⟨d.path, d.uri, Language.ofPath d.path, 1, "1\n2\n"⟩) :
    Holds disk d := by
  have hdecode : Utf8.decode? [49, 10, 50, 10] = some "1\n2\n" := by
    decide
  have hread : disk.readText d.path = .ok "1\n2\n" :=
    Disk.readText_eq_ok_iff.mpr ⟨_, _, hlocate, hdecode⟩
  constructor
  case real =>
    exact Disk.realPath_eq_ok_iff.mpr ⟨_, _, hlocate, hplace.symm⟩
  case load =>
    rw [Documents.load, hread, huri]
    exact congrArg Except.ok hnew.symm

theorem holds_twoFiles_first : Holds twoFiles Client.smallDocument := by
  apply holds_of_locate [[97]]
  · show twoFiles.walk Disk.maxLinks [] [[97]] = _
    rw [Disk.walk]
    rfl
  · rfl
  · decide
  · decide

theorem holds_twoFiles_other : Holds twoFiles otherDocument := by
  apply holds_of_locate [[98]]
  · show twoFiles.walk Disk.maxLinks [] [[98]] = _
    rw [Disk.walk]
    rfl
  · rfl
  · decide
  · decide

/-- An edit of the other file, and one that names a line which that file does
not have. -/
def otherFile : Url × List TextEdit :=
  (⟨"file:///b"⟩, [⟨⟨⟨1, 0⟩, ⟨1, 1⟩⟩, "B"⟩])

def pastOtherFile : Url × List TextEdit :=
  (⟨"file:///b"⟩, [⟨⟨⟨9, 0⟩, ⟨9, 1⟩⟩, "B"⟩])

theorem otherFile_path : otherFile.1.toPath = otherDocument.path := by
  decide

def bothFiles : WorkspaceEdit :=
  changing [firstLine, otherFile]

theorem bothFiles_grouped :
    WorkspaceEdit.grouped bothFiles.addressed = [firstLine, otherFile] := by
  decide

theorem bothFiles_answered :
    RenameAnswered smallPlace "x" (answeringOn twoFiles bothFiles.toJson)
      bothFiles (renameAnswer twoFiles bothFiles).2 :=
  renameAnswered_small holds_twoFiles_first (by decide)

theorem bothFiles_fit (file : Url × List TextEdit)
    (hfile : file ∈ [firstLine, otherFile]) : FitsSmall twoFiles file := by
  rcases List.mem_pair.mp hfile with rfl | rfl
  · exact firstLine_fits holds_twoFiles_first
  · exact ⟨otherDocument, "1\nB\n", holds_twoFiles_other, otherFile_path, rfl⟩

/-- The two URLs lead to two files. -/
theorem bothFiles_distinct : NamesDistinctFiles twoFiles bothFiles := by
  have hfirst : twoFiles.realPath firstLine.1.toPath = .ok Client.smallFile :=
    firstLine_path ▸ holds_twoFiles_first.real
  have hother : twoFiles.realPath otherFile.1.toPath = .ok otherDocument.path :=
    otherFile_path ▸ holds_twoFiles_other.real
  have hne : Client.smallFile ≠ otherDocument.path := by
    decide
  intro f g r hf hg hurls hreal hsame
  rw [affects_small bothFiles_grouped, List.mem_pair] at hf hg
  rcases hf with rfl | rfl
  · rcases hg with rfl | rfl
    · exact hurls rfl
    · exact hne (Except.ok.inj
        ((hfirst.symm.trans hreal).trans (hsame.symm.trans hother)))
  · rcases hg with rfl | rfl
    · exact hne (Except.ok.inj
        ((hfirst.symm.trans hsame).trans (hreal.symm.trans hother)))
    · exact hurls rfl

def pastBothFiles : WorkspaceEdit :=
  changing [firstLine, pastOtherFile]

theorem pastBothFiles_answered :
    RenameAnswered smallPlace "x" (answeringOn twoFiles pastBothFiles.toJson)
      pastBothFiles (renameAnswer twoFiles pastBothFiles).2 :=
  renameAnswered_small holds_twoFiles_first (by decide)

theorem pastBothFiles_obstructed : ∃ file, pastBothFiles.Affects file ∧
    Obstructed (renameAnswer twoFiles pastBothFiles).2 file := by
  have hgrouped : WorkspaceEdit.grouped pastBothFiles.addressed =
      [firstLine, pastOtherFile] := by
    decide
  refine ⟨pastOtherFile, ?_, ?_⟩
  · exact (affects_small hgrouped pastOtherFile).mpr (by decide)
  · exact obstructed_small pastBothFiles_answered holds_twoFiles_other
      twoFiles_current otherFile_path rfl

/-! # Renaming in all files -/

/-- While a file operation or an obstructed file keeps the texts from being
worked out, nothing has changed when the call fails. Once they are worked out,
and if the URLs name different files, a call that succeeds has renamed in every
file; and it succeeds if the files can be written and nothing keeps the server
from being told. -/
theorem rename_all_or_nothing (hcurrent : c.disk.HasCurrent)
    (hnamed : c.documents.IsNamed) (h : RenameAnswered p newName c edit asked) :
    ((edit.HasOperation ∨ ∃ file, edit.Affects file ∧ Obstructed asked file) →
      ∃ f c', renameSymbol p newName c = (.error f, c') ∧ Untouched c c') ∧
    (NamesDistinctFiles c.disk edit →
      ∀ report c', renameSymbol p newName c = (.ok report, c') →
      ∀ file, edit.Affects file → Renamed c c' file) ∧
    (¬ edit.HasOperation →
      (∀ file, edit.Affects file → ¬ Obstructed asked file) →
      asked.IsLive → (∀ file, edit.Affects file → ∀ text,
        ∃ disk, c.disk.writeText file.1.toPath text = .ok disk) →
      ∃ report c', renameSymbol p newName c = (.ok report, c')) := by
  have hmem := edit.mem_grouped_iff_affects
  refine ⟨?_, ?_, renameSymbol_of_free hcurrent h⟩
  · intro hwhy
    rcases renameSymbol_cases hcurrent h with
      ⟨f, c', heq, hchange, -⟩ | ⟨updates, prepared, hnone, hall, -⟩
    · exact ⟨f, c', heq, hchange.disk, hchange.sent, fun r d => hchange.opened⟩
    · rcases hwhy with hop | ⟨file, haffects, hobstructed⟩
      · exact absurd hop hnone
      · obtain ⟨u, hfits⟩ := fits_of_mem hall ((hmem file).mpr haffects)
        exact absurd hobstructed hfits.not_obstructed
  · intro hdistinct report c' hok file haffects
    rcases renameSymbol_cases hcurrent h with
      ⟨f, after, heq, -, -⟩ |
      ⟨updates, prepared, -, hall, hprepared, hopen, hsaved⟩
    · exact nomatch (Prod.mk.inj (heq.symm.trans hok)).1
    · refine renamed_of_saved hcurrent hnamed h.opening hall
        (WorkspaceEdit.grouped_ascending _) ((hmem file).mpr haffects) ?_
        hprepared hopen ((hsaved c').mp ⟨report, hok⟩)
      intro f hf r hne hreal
      exact hdistinct file f r haffects ((hmem f).mp hf) (Ne.symm hne) hreal

/-- Both files are edited. If the edit of the second one does not fit it,
nothing has changed. -/
theorem rename_two_files :
    (∃ report c',
      renameSymbol smallPlace "x" (answeringOn twoFiles bothFiles.toJson) =
        (.ok report, c') ∧
      ∀ file ∈ [firstLine, otherFile],
        Renamed (answeringOn twoFiles bothFiles.toJson) c' file) ∧
    ∃ f c',
      renameSymbol smallPlace "x" (answeringOn twoFiles pastBothFiles.toJson) =
        (.error f, c') ∧
      Untouched (answeringOn twoFiles pastBothFiles.toJson) c' := by
  have hnamed (result : Json) :
      (answeringOn twoFiles result).documents.IsNamed := by
    intro r d hd
    cases hd
  constructor
  · have hlive : (renameAnswer twoFiles bothFiles).2.IsLive :=
      ⟨by decide, by decide⟩
    rcases small_is_free twoFiles_current bothFiles_answered hlive
        bothFiles_grouped bothFiles_fit with
      ⟨hfree, hwritable⟩
    rcases rename_all_or_nothing twoFiles_current (hnamed _)
        bothFiles_answered with
      ⟨-, hrenamed, hok⟩
    rcases hok (not_hasOperation_changing _) hfree hlive hwritable with
      ⟨report, c', heq⟩
    refine ⟨report, c', heq, ?_⟩
    intro file hfile
    rw [← affects_small bothFiles_grouped] at hfile
    exact hrenamed bothFiles_distinct report c' heq file hfile
  · rcases rename_all_or_nothing twoFiles_current (hnamed _)
        pastBothFiles_answered with
      ⟨hfails, -, -⟩
    exact hfails (.inr pastBothFiles_obstructed)

/-! # Several URLs of one file -/

theorem saved_of_renameSymbol (hcurrent : c.disk.HasCurrent)
    (h : RenameAnswered p newName c edit asked) {report : String}
    (hok : renameSymbol p newName c = (.ok report, c')) :
    ∃ updates prepared,
    List.Forall₂ (Fits asked) (WorkspaceEdit.grouped edit.addressed) updates ∧
      prepared.disk = c.disk ∧ Saved updates prepared c' := by
  rcases renameSymbol_cases hcurrent h with
    ⟨f, after, heq, -, -⟩ |
    ⟨updates, prepared, -, hall, hprepared, hopen, hsaved⟩
  · exact nomatch (Prod.mk.inj (heq.symm.trans hok)).1
  · have hdisk : prepared.disk = c.disk :=
      (h.opening.trans hprepared.opening).disk
    exact ⟨updates, prepared, hall, hdisk,
      saveAll_eq_ok (hdisk ▸ hcurrent) hopen ((hsaved c').mp ⟨report, hok⟩)⟩

/-- If a rename succeeds, a file gets what is addressed to the last of the URLs
that name it. -/
theorem readText_last_url (hcurrent : c.disk.HasCurrent)
    (h : RenameAnswered p newName c edit asked) {report : String}
    (hok : renameSymbol p newName c = (.ok report, c'))
    {file : Url × List TextEdit} {r : FilePath} (haffects : edit.Affects file)
    (hreal : c.disk.realPath file.1.toPath = .ok r)
    (hlast : ∀ f, edit.Affects f → file.1.text < f.1.text →
      c.disk.realPath f.1.toPath ≠ .ok r) :
    ∃ old new, c.text file.1.toPath = .ok old ∧
    TextEdit.applyAll old file.2 = .ok new ∧
      c'.disk.readText file.1.toPath = .ok new := by
  have hmem := edit.mem_grouped_iff_affects
  obtain ⟨updates, prepared, hall, hdisk, hsaved⟩ :=
    saved_of_renameSymbol hcurrent h hok
  have hasked : asked.disk = c.disk := h.opening.disk
  obtain ⟨u, hfits, hu⟩ :=
    getLast?_updatesOf hall (WorkspaceEdit.grouped_ascending _)
    ((hmem file).mpr haffects) (hasked ▸ hreal)
    fun f hf hlater => hasked ▸ hlast f ((hmem f).mp hf) hlater
  obtain ⟨old, hold, happlies⟩ := hfits.applies
  rw [h.opening.text hcurrent] at hold
  rw [hasked, ← hdisk] at hu
  have hwritten := hsaved.written (q := file.1.toPath) (r := r) (hdisk ▸ hreal)
    (fun hnone => by rw [hnone] at hu; exact nomatch hu) old
  rw [finalText, hu] at hwritten
  exact ⟨old, u.text, hold, happlies, hwritten⟩

theorem readText_unnamed (hcurrent : c.disk.HasCurrent)
    (h : RenameAnswered p newName c edit asked) {report : String}
    (hok : renameSymbol p newName c = (.ok report, c')) {q r : FilePath}
    {old : String}
    (hnone : ∀ file, edit.Affects file → c.disk.realPath file.1.toPath ≠ .ok r)
    (hreal : c.disk.realPath q = .ok r) (hread : c.disk.readText q = .ok old) :
    c'.disk.readText q = .ok old := by
  have hmem := edit.mem_grouped_iff_affects
  obtain ⟨updates, prepared, hall, hdisk, hsaved⟩ :=
    saved_of_renameSymbol hcurrent h hok
  have hasked : asked.disk = c.disk := h.opening.disk
  have hnot :=
    updatesOf_eq_nil (r := r) hall fun f hf => hasked ▸ hnone f ((hmem f).mp hf)
  rw [hasked, ← hdisk] at hnot
  exact hsaved.kept (hdisk ▸ hreal) hnot (hdisk ▸ hread)

def bothLines : WorkspaceEdit :=
  changing [secondLine, firstLine]

theorem bothLines_grouped :
    WorkspaceEdit.grouped bothLines.addressed = [secondLine, firstLine] := by
  decide

theorem rename_bothLines :
    ∃ asked, RenameAnswered smallPlace "x" (answering bothLines.toJson)
      bothLines asked ∧
    ∃ report c', renameSymbol smallPlace "x" (answering bothLines.toJson) =
      (.ok report, c') := by
  have hanswered :
      RenameAnswered smallPlace "x" (answering bothLines.toJson) bothLines
      (renameAnswer Client.twoLines.disk bothLines).2 :=
    renameAnswered_small holds_twoLines (by decide)
  have hlive : (renameAnswer Client.twoLines.disk bothLines).2.IsLive :=
    ⟨by decide, by decide⟩
  have hfits :
      ∀ file ∈ [secondLine, firstLine], FitsSmall Client.twoLines.disk file :=
    List.forall_mem_cons.mpr ⟨secondLine_fits,
      List.forall_mem_singleton.mpr (firstLine_fits holds_twoLines)⟩
  rcases small_is_free Client.twoLines_current hanswered hlive bothLines_grouped
      hfits with
    ⟨hfree, hwritable⟩
  exact ⟨_, hanswered, renameSymbol_of_free Client.twoLines_current hanswered
    (not_hasOperation_changing _) hfree hlive hwritable⟩

theorem bothLines_last (f : Url × List TextEdit) (hf : bothLines.Affects f) :
    ¬ firstLine.1.text < f.1.text := by
  rw [affects_small bothLines_grouped] at hf
  rcases List.mem_cons.mp hf with rfl | hf
  · decide
  · rw [List.mem_singleton.mp hf]
    exact lt_irrefl _

theorem realPath_firstLine :
    (answering bothLines.toJson).disk.realPath firstLine.1.toPath =
      .ok Client.smallFile := by
  rw [firstLine_path]
  exact Client.twoLines_realPath

/-- What a rename that succeeds makes of the files: of the URLs of a file the
last one counts, in the order of their texts, and a file that no URL names keeps
its text. -/
theorem rename_applies_last_url (hcurrent : c.disk.HasCurrent)
    (h : RenameAnswered p newName c edit asked) {report : String}
    (hok : renameSymbol p newName c = (.ok report, c')) (r : FilePath) :
    (∀ file, edit.Affects file → c.disk.realPath file.1.toPath = .ok r →
      (∀ f, edit.Affects f → file.1.text < f.1.text →
        c.disk.realPath f.1.toPath ≠ .ok r) →
      ∃ old new, c.text file.1.toPath = .ok old ∧
      TextEdit.applyAll old file.2 = .ok new ∧
        c'.disk.readText file.1.toPath = .ok new) ∧
    ((∀ file, edit.Affects file → c.disk.realPath file.1.toPath ≠ .ok r) →
      ∀ q old, c.disk.realPath q = .ok r → c.disk.readText q = .ok old →
        c'.disk.readText q = .ok old) := by
  constructor
  · intro file haffects hreal hlast
    exact readText_last_url hcurrent h hok haffects hreal hlast
  · intro hnone q old hreal hread
    exact readText_unnamed hcurrent h hok hnone hreal hread

theorem rename_applies_first_line : ∃ report c',
    renameSymbol smallPlace "x" (answering bothLines.toJson) =
      (.ok report, c') ∧
    ∃ old new, (answering bothLines.toJson).text firstLine.1.toPath = .ok old ∧
      TextEdit.applyAll old firstLine.2 = .ok new ∧
      c'.disk.readText firstLine.1.toPath = .ok new := by
  obtain ⟨asked, hanswered, report, c', hok⟩ := rename_bothLines
  obtain ⟨hlast, -⟩ := rename_applies_last_url (c := answering bothLines.toJson)
    Client.twoLines_current hanswered hok Client.smallFile
  refine ⟨report, c', hok, hlast firstLine ?_ realPath_firstLine ?_⟩
  · rw [affects_small bothLines_grouped]
    exact List.mem_cons_of_mem _ List.mem_cons_self
  · intro f hf hlater
    exact absurd hlater (bothLines_last f hf)

/-- All that is addressed to a file, under whatever URLs. -/
def editsToFile (disk : Disk) (r : FilePath) (edit : WorkspaceEdit) :
    List TextEdit :=
  (edit.addressed.filter fun e =>
    disk.realPath e.1.toPath = .ok r).flatMap Prod.snd

/-- The call succeeds, and yet the second line is as it was. -/
theorem rename_loses_second_line : ∃ asked report c',
    RenameAnswered smallPlace "x" (answering bothLines.toJson) bothLines asked ∧
    renameSymbol smallPlace "x" (answering bothLines.toJson) =
      (.ok report, c') ∧
    (answering bothLines.toJson).text Client.smallFile = .ok "1\n2\n" ∧
    TextEdit.applyAll "1\n2\n"
      (editsToFile (answering bothLines.toJson).disk Client.smallFile
      bothLines) = .ok "A\nB\n" ∧
    c'.disk.readText Client.smallFile = .ok "A\n2\n" := by
  obtain ⟨asked, hanswered, report, c', hok⟩ := rename_bothLines
  have haffects : bothLines.Affects firstLine := by
    rw [affects_small bothLines_grouped]
    exact List.mem_cons_of_mem _ List.mem_cons_self
  obtain ⟨old, new, hold, happlies, hread⟩ :=
    readText_last_url (c := answering bothLines.toJson)
    Client.twoLines_current hanswered hok haffects realPath_firstLine
    fun f hf hlater => absurd hlater (bothLines_last f hf)
  have htext :
      (answering bothLines.toJson).text Client.smallFile = .ok "1\n2\n" :=
    (Client.text_of_unopened Client.twoLines_realPath rfl).trans
      Client.twoLines_readText
  rw [firstLine_path] at hold hread
  obtain rfl := Except.ok.inj (htext.symm.trans hold)
  have hnew : TextEdit.applyAll "1\n2\n" firstLine.2 = .ok "A\n2\n" := by
    rfl
  obtain rfl := Except.ok.inj (hnew.symm.trans happlies)
  refine ⟨_, report, c', hanswered, hok, htext, ?_, hread⟩
  have haddressed : bothLines.addressed = [secondLine, firstLine] := rfl
  have hreal : (answering bothLines.toJson).disk.realPath Client.smallFile =
      .ok Client.smallFile :=
    Client.twoLines_realPath
  have hall :
      editsToFile (answering bothLines.toJson).disk Client.smallFile bothLines =
      secondLine.2 ++ firstLine.2 := by
    simp [editsToFile, haddressed, firstLine_path, secondLine_path, hreal]
  rw [hall]
  rfl

end Tool
end CodeIntel
