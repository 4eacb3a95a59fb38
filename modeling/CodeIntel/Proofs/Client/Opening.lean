import CodeIntel.Proofs.Client.Undisturbed
import CodeIntel.Proofs.Documents.Outcomes

/-!
# What asking about files changes

Asking a server about a file opens the file. Whatever is asked, and whatever
comes of it, no file and no open document changes, and a document that is open
now and was not before shows its file as it is. So the text of a file stays the
same.
-/

namespace CodeIntel
namespace Client

variable {σ : Type} {a b c c' : Client σ}

/-- A change that at most opens files. -/
structure Opening (c c' : Client σ) : Prop where
  root : c'.root = c.root
  disk : c'.disk = c.disk
  closed : c'.connection.closed = false → c.connection.closed = false
  sent : Connection.SaysNoChange c.connection c'.connection
  entry : ∀ r, c'.documents.table.find? r = c.documents.table.find? r ∨
    c.documents.table.find? r = none ∧
    ∃ d p, c'.documents.table.find? r = some (.opened d) ∧
    c.disk.realPath p = .ok r ∧
      Documents.load c.disk r = .ok d

theorem Undisturbed.opening (h : Undisturbed c c') : Opening c c' := by
  refine ⟨h.root, h.disk, h.closed, h.sent, ?_⟩
  intro r
  exact .inl (by rw [h.table])

namespace Opening

theorem refl (c : Client σ) : Opening c c :=
  (Undisturbed.refl c).opening

theorem trans (hab : Opening a b) (hbc : Opening b c) : Opening a c := by
  refine ⟨hbc.root.trans hab.root, hbc.disk.trans hab.disk,
    hab.closed ∘ hbc.closed, hab.sent.trans hbc.sent, ?_⟩
  intro r
  rcases hbc.entry r with hsame | ⟨hnone, d, p, hopened, hreal, hload⟩
  · rw [hsame]
    exact hab.entry r
  · rcases hab.entry r with hsame | ⟨-, d', p', hopened', -⟩
    · rw [hab.disk] at hreal hload
      exact .inr ⟨hsame ▸ hnone, d, p, hopened, hreal, hload⟩
    · rw [hnone] at hopened'
      exact nomatch hopened'

theorem opened (h : Opening c c') {r : FilePath} {d : OpenDocument}
    (hd : c.documents.table.find? r = some (.opened d)) :
    c'.documents.table.find? r = some (.opened d) := by
  rcases h.entry r with hsame | ⟨hnone, -⟩
  · rw [hsame, hd]
  · rw [hd] at hnone
    exact nomatch hnone

theorem isNamed (h : Opening c c') (hnamed : c.documents.IsNamed) :
    c'.documents.IsNamed := by
  intro r d hd
  rcases h.entry r with hsame | ⟨-, d', p, hopened, hreal, hload⟩
  · exact hnamed r d (hsame ▸ hd)
  · obtain rfl : d' = d := by simpa [hopened] using hd
    exact ⟨Disk.isReal_of_realPath hreal, Documents.uri_of_load hload⟩

end Opening

/-! # Asking -/

theorem openFile_apply (path : FilePath) (c : Client σ) :
    openFile path c = ((Documents.openFile c.disk path c.documents).1,
      { c with documents := (Documents.openFile c.disk path c.documents).2 }) :=
  rfl

theorem opening_openFile (path : FilePath) (c : Client σ) :
    Opening c (openFile path c).2 := by
  rw [openFile_apply]
  rcases Documents.openFile_cases c.disk path c.documents with
    ⟨r, d, -, -, heq⟩ | ⟨r, d, hreal, hnone, hload, hlive, heq⟩ |
    ⟨f, connection, heq, hwire, hclosed⟩
  · rw [heq]
    exact Opening.refl c
  · rw [heq]
    have hsent : Connection.SaysNoChange c.connection
        (c.connection.told Documents.openMethod (Documents.openParams d)) := by
      apply Connection.Sends.snoc (m := .notification _ _) _ rfl
      show Documents.openMethod ≠ Documents.changeMethod
      decide
    refine ⟨rfl, rfl, fun _ => hlive.1, hsent, ?_⟩
    intro q
    by_cases hq : q = r
    · subst hq
      exact .inr ⟨hnone, d, path, DocumentTable.find?_set_self q _ _,
        hreal, hload⟩
    · exact .inl (DocumentTable.find?_set_of_ne hq _ _)
  · rw [heq]
    exact ⟨rfl, rfl, hclosed, .of_wire hwire, fun _ => .inl rfl⟩

theorem opening_askPlace {α : Type} (r : Request α) (path : FilePath)
    (p : Position) (members : Members) (c : Client σ) :
    Opening c (askPlace r path p members c).2 := by
  have hopen := opening_openFile path c
  rw [askPlace, bind_apply]
  split
  · next uri after heq =>
      rw [heq] at hopen
      exact hopen.trans (undisturbed_request r _ after).opening
  · next f after heq =>
      rw [heq] at hopen
      exact hopen

theorem opening_rename (path : FilePath) (p : Position) (newName : String)
    (c : Client σ) :
    Opening c (rename path p newName c).2 :=
  opening_askPlace Request.rename path p _ c

theorem openFile_congr {p q r : FilePath} {c : Client σ}
    (hp : c.disk.realPath p = .ok r) (hq : c.disk.realPath q = .ok r) :
    openFile p c = openFile q c := by
  have hsame : Documents.openFile c.disk p c.documents =
      Documents.openFile c.disk q c.documents := by
    simp only [Documents.openFile, Documents.canonical_eq_ok_iff.mpr hp,
      Documents.canonical_eq_ok_iff.mpr hq]
  rw [openFile_apply, hsame, ← openFile_apply]

theorem openFile_of_opened {path r : FilePath} {d : OpenDocument} {c : Client σ}
    (hreal : c.disk.realPath path = .ok r)
    (hd : c.documents.table.find? r = some (.opened d)) :
    openFile path c = (.ok d.uri, c) := by
  rw [openFile_apply, Documents.openFile_of_opened hreal hd]

theorem opened_of_openFile {path : FilePath} {uri : Url}
    (h : openFile path c = (.ok uri, c')) :
    ∃ r d, c.disk.realPath path = .ok r ∧
    c'.documents.table.find? r = some (.opened d) ∧
      d.uri = uri := by
  rw [openFile_apply] at h
  rcases Documents.openFile_cases c.disk path c.documents with
    ⟨r, d, hreal, hopened, heq⟩ | ⟨r, d, hreal, -, -, -, heq⟩ |
    ⟨f, connection, heq, -⟩
  · rw [heq] at h
    obtain ⟨huri, rfl⟩ := Prod.mk.inj h
    exact ⟨r, d, hreal, hopened, Except.ok.inj huri⟩
  · rw [heq] at h
    obtain ⟨huri, rfl⟩ := Prod.mk.inj h
    exact ⟨r, d, hreal, DocumentTable.find?_set_self r _ _, Except.ok.inj huri⟩
  · rw [heq] at h
    exact nomatch (Prod.mk.inj h).1

/-- Once a file is opened, any file is opened or not as before. -/
theorem openFile_after {path : FilePath} {uri : Url}
    (h : openFile path c = (.ok uri, c')) (q : FilePath) :
    (openFile q c').1 = (openFile q c).1 := by
  rw [openFile_apply] at h
  obtain ⟨hresult, rfl⟩ := Prod.mk.inj h
  exact Documents.openFile_after (Prod.ext hresult rfl)

/-- Nothing keeps the client from writing to its process. -/
def IsLive (c : Client σ) : Prop :=
  c.connection.closed = false ∧ c.connection.broken = false

theorem IsLive.openFile {path : FilePath} {uri : Url} (hlive : c.IsLive)
    (h : openFile path c = (.ok uri, c')) : c'.IsLive := by
  rw [openFile_apply] at h
  rcases Documents.openFile_cases c.disk path c.documents with
    ⟨r, d, -, -, heq⟩ | ⟨r, d, -, -, -, -, heq⟩ | ⟨f, connection, heq, -⟩
  · rw [heq] at h
    rw [← (Prod.mk.inj h).2]
    exact hlive
  · rw [heq] at h
    rw [← (Prod.mk.inj h).2]
    exact hlive
  · rw [heq] at h
    exact nomatch (Prod.mk.inj h).1

def withOpened (c : Client σ) (r : FilePath) (d : OpenDocument) : Client σ :=
  { c with documents :=
      ⟨c.connection.told Documents.openMethod (Documents.openParams d),
        c.documents.table.set r (.opened d)⟩ }

theorem openFile_eq_withOpened {path r : FilePath} {d : OpenDocument}
    (hlive : c.IsLive) (hreal : c.disk.realPath path = .ok r)
    (hnone : c.documents.table.find? r = none)
    (hload : Documents.load c.disk r = .ok d) :
    openFile path c = (.ok d.uri, c.withOpened r d) := by
  rw [openFile_apply, Documents.openFile_of_load hreal hnone hload hlive]
  rfl

theorem openFile_of_load {path r : FilePath} {d : OpenDocument}
    (hlive : c.IsLive) (hreal : c.disk.realPath path = .ok r)
    (hnone : c.documents.table.find? r = none)
    (hload : Documents.load c.disk r = .ok d) :
    ∃ c', openFile path c = (.ok d.uri, c') ∧ c'.IsLive ∧ c'.root = c.root ∧
    c'.disk = c.disk ∧
      c'.documents.table = c.documents.table.set r (.opened d) :=
  ⟨_, openFile_eq_withOpened hlive hreal hnone hload, hlive, rfl, rfl, rfl⟩

/-! # The text of a file -/

theorem text_of_opened {path r : FilePath} {d : OpenDocument}
    (hreal : c.disk.realPath path = .ok r)
    (hd : c.documents.table.find? r = some (.opened d)) :
    c.text path = .ok d.content := by
  simp only [Client.text, Client.document?, Documents.document?, hreal, hd,
    Option.bind_some, DocumentState.document?]

theorem text_of_unopened {path r : FilePath}
    (hreal : c.disk.realPath path = .ok r)
    (hnone : c.documents.table.find? r = none) :
    c.text path = c.disk.readText path := by
  simp only [Client.text, Client.document?, Documents.document?, hreal, hnone,
    Option.bind_none]

theorem Opening.text (h : Opening c c') (hd : c.disk.HasCurrent)
    (path : FilePath) :
    c'.text path = c.text path := by
  unfold Client.text Client.document? Documents.document?
  rw [h.disk]
  cases hreal : c.disk.realPath path with
  | error e =>
      rfl
  | ok r =>
      rcases h.entry r with hsame | ⟨hnone, d, p, hopened, -, hload⟩
      · simp only [hsame]
      · simp only [hopened, hnone]
        exact (Disk.readText_of_realPath hd hreal
          (Documents.readText_of_load hload)).symm

/-! # Telling -/

theorem changeFile_apply (path : FilePath) (content : String) (c : Client σ) :
    changeFile path content c =
      ((Documents.changeFile c.disk path content c.documents).1,
      { c with
        documents :=
          (Documents.changeFile c.disk path content c.documents).2 }) := rfl

/-- An open document gets a new text, or nothing changes. An open document that
does not get it is on a connection that is closed by then. -/
theorem changeFile_cases (path : FilePath) (content : String) (c : Client σ) :
    (∃ r d c', c.disk.realPath path = .ok r ∧
      c.documents.table.find? r = some (.opened d) ∧
      changeFile path content c = (.ok (d.version + 1), c') ∧
      c.connection.closed = false ∧ c'.root = c.root ∧ c'.disk = c.disk ∧
      c'.documents.table = c.documents.table.set r
        (.opened { d with version := d.version + 1, content := content }) ∧
      c'.connection = c.connection.told Documents.changeMethod
        (Documents.changeParams d.uri (d.version + 1) content)) ∨
    (∃ f c', changeFile path content c = (.error f, c') ∧ Undisturbed c c' ∧
      ∀ r d, c.disk.realPath path = .ok r →
      c.documents.table.find? r = some (.opened d) →
        c'.connection.closed = true) := by
  rw [changeFile_apply]
  rcases Documents.changeFile_cases c.disk path content c.documents with
    ⟨r, d, hreal, hopened, hlive, heq⟩ |
    ⟨f, connection, heq, hwire, hclosed, hgone⟩
  · rw [heq]
    exact .inl ⟨r, d, _, hreal, hopened, rfl, hlive.1, rfl, rfl, rfl, rfl⟩
  · rw [heq]
    exact .inr ⟨f, _, rfl, ⟨rfl, rfl, rfl, hclosed, .of_wire hwire⟩, hgone⟩

theorem changeFile_of_opened {path r : FilePath} {d : OpenDocument}
    (hlive : c.IsLive) (hreal : c.disk.realPath path = .ok r)
    (hd : c.documents.table.find? r = some (.opened d)) (content : String) :
    ∃ c', changeFile path content c = (.ok (d.version + 1), c') ∧ c'.IsLive ∧
    c'.root = c.root ∧
      c'.disk = c.disk ∧ c'.documents.table = c.documents.table.set r
        (.opened { d with version := d.version + 1, content := content }) := by
  rw [changeFile_apply, Documents.changeFile_of_opened hreal hd content hlive]
  exact ⟨_, rfl, hlive, rfl, rfl, rfl⟩

/-! # A small workspace -/

def smallFile : FilePath := ⟨[47, 97]⟩

/-- A client whose workspace is one file of two lines, with a process that never
answers. -/
def twoLines : Client Unit where
  config :=
    { command := ""
      args := []
      root := ⟨[47]⟩
      initTimeoutMs := 0
      requestTimeoutMs := 0
      shutdownGraceMs := 0 }
  root := ⟨[47]⟩
  disk :=
    { nodes := [([[97]], .file [49, 10, 50, 10])]
      current := []
      current_plain := by simp }
  peer := { state := (), react := fun _ _ _ => ([], ()) }

theorem twoLines_current : twoLines.disk.HasCurrent := by
  intro front hfront
  rw [List.prefix_nil.mp hfront]
  exact Disk.node?_nil _

theorem locate_smallFile :
    twoLines.disk.locate smallFile =
      .ok (.found [[97]] (.file [49, 10, 50, 10])) := by
  show twoLines.disk.walk Disk.maxLinks [] [[97]] = _
  rw [Disk.walk]
  rfl

theorem twoLines_realPath : twoLines.disk.realPath smallFile = .ok smallFile :=
  Disk.realPath_eq_ok_iff.mpr ⟨_, _, locate_smallFile, rfl⟩

theorem twoLines_readText :
    twoLines.disk.readText smallFile = .ok "1\n2\n" := by
  have hdecode : Utf8.decode? [49, 10, 50, 10] = some "1\n2\n" := by
    decide
  exact Disk.readText_eq_ok_iff.mpr ⟨_, _, locate_smallFile, hdecode⟩

def smallDocument : OpenDocument :=
  ⟨smallFile, ⟨"file:///a"⟩, "plaintext", 1, "1\n2\n"⟩

theorem toPath_smallDocument : smallDocument.uri.toPath = smallFile := by
  decide

theorem load_twoLines :
    Documents.load twoLines.disk smallFile = .ok smallDocument := by
  have huri : Url.ofPath? smallFile = some ⟨"file:///a"⟩ := by
    decide
  have hlanguage : Language.ofPath smallFile = "plaintext" := by
    decide
  simp only [Documents.load, twoLines_readText, huri, hlanguage, smallDocument]

theorem openFile_smallFile (hlive : c.IsLive) (hdisk : c.disk = twoLines.disk)
    (hnone : c.documents.table.find? smallFile = none) :
    openFile smallFile c =
      (.ok ⟨"file:///a"⟩, c.withOpened smallFile smallDocument) := by
  have hreal : c.disk.realPath smallFile = .ok smallFile := by
    rw [hdisk]
    exact twoLines_realPath
  have hload : Documents.load c.disk smallFile = .ok smallDocument := by
    rw [hdisk]
    exact load_twoLines
  exact openFile_eq_withOpened hlive hreal hnone hload

theorem openFile_twoLines :
    ∃ uri d c, openFile smallFile twoLines = (.ok uri, c) ∧ c.IsLive ∧
    c.disk = twoLines.disk ∧
    c.documents.table.find? smallFile = some (.opened d) ∧
    d.content = "1\n2\n" := by
  obtain ⟨c, hopen, hlive, -, hdisk, htable⟩ :=
    openFile_of_load (c :=
      twoLines) ⟨rfl, rfl⟩ twoLines_realPath rfl load_twoLines
  have hentry := DocumentTable.find?_set_self smallFile (.opened smallDocument)
    twoLines.documents.table
  rw [← htable] at hentry
  exact ⟨_, _, c, hopen, hlive, hdisk, hentry, rfl⟩

end Client
end CodeIntel
