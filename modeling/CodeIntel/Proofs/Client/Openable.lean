import CodeIntel.Proofs.Client.Opening

/-!
# Which files can be opened

A file can be opened if it exists and is open already, or else was never opened,
can be read, and the connection works. What a client asks about files does not
change that, unless the connection is lost: then only the files that are open by
then can still be opened.
-/

namespace CodeIntel

namespace Documents

theorem notify_broken (s : Documents) (method : String) (params : Json) :
    (s.notify method params).2.connection.broken = s.connection.broken :=
  Connection.write_broken s.connection (.notification method params)

theorem openFile_broken (disk : Disk) (path : FilePath) (s : Documents) :
    (openFile disk path s).2.connection.broken = s.connection.broken := by
  unfold openFile
  split
  · rfl
  · split
    · rfl
    · rfl
    · unfold sendOpen
      split
      · rfl
      · next d hload =>
          have hnotified := notify_broken s openMethod (openParams d)
          split
          · next heq =>
              rw [heq] at hnotified
              exact hnotified
          · next heq =>
              rw [heq] at hnotified
              exact hnotified

end Documents

namespace Client

variable {σ : Type} {a b c c' : Client σ}

/-- Whether a file can be opened now. -/
def canOpen (path : FilePath) (c : Client σ) : Bool :=
  (openFile path c).1.isOk

theorem canOpen_of_openFile {path : FilePath} {uri : Url}
    (h : openFile path c = (.ok uri, c')) :
    c.canOpen path = true := by
  rw [canOpen, h]
  rfl

theorem not_canOpen_of_openFile {path : FilePath} {f : ClientFault}
    (h : openFile path c = (.error f, c')) : c.canOpen path = false := by
  rw [canOpen, h]
  rfl

theorem canOpen_of_opened {path r : FilePath} {d : OpenDocument}
    (hreal : c.disk.realPath path = .ok r)
    (hd : c.documents.table.find? r = some (.opened d)) :
    c.canOpen path = true :=
  canOpen_of_openFile (openFile_of_opened hreal hd)

theorem canOpen_of_load {path r : FilePath} {d : OpenDocument}
    (hlive : c.IsLive) (hreal : c.disk.realPath path = .ok r)
    (hnone : c.documents.table.find? r = none)
    (hload : Documents.load c.disk r = .ok d) : c.canOpen path = true :=
  canOpen_of_openFile (openFile_eq_withOpened hlive hreal hnone hload)

theorem canOpen_iff {path : FilePath} : c.canOpen path = true ↔
    ∃ r d, c.disk.realPath path = .ok r ∧
    (c.documents.table.find? r = some (.opened d) ∨
      c.documents.table.find? r = none ∧ Documents.load c.disk r = .ok d ∧
      c.IsLive) := by
  constructor
  · intro h
    rw [canOpen, openFile_apply] at h
    rcases Documents.openFile_cases c.disk path c.documents with
      ⟨r, d, hreal, hd, -⟩ | ⟨r, d, hreal, hnone, hload, hlive, -⟩ |
      ⟨f, connection, heq, -⟩
    · exact ⟨r, d, hreal, .inl hd⟩
    · exact ⟨r, d, hreal, .inr ⟨hnone, hload, hlive⟩⟩
    · rw [heq] at h
      exact nomatch h
  · rintro ⟨r, d, hreal, hd | ⟨hnone, hload, hlive⟩⟩
    · exact canOpen_of_opened hreal hd
    · exact canOpen_of_load hlive hreal hnone hload

/-! # The document of a file -/

theorem document?_eq_some_iff {path : FilePath} {d : OpenDocument} :
    c.document? path = some d ↔ ∃ r, c.disk.realPath path = .ok r ∧
    c.documents.table.find? r = some (.opened d) := by
  unfold Client.document? Documents.document?
  cases c.disk.realPath path with
  | error e =>
      simp
  | ok r =>
      cases hstate : c.documents.table.find? r with
      | none =>
          simp [hstate]
      | some state =>
          cases state <;> simp [hstate, DocumentState.document?]

theorem canOpen_of_document? {path : FilePath} {d : OpenDocument}
    (h : c.document? path = some d) : c.canOpen path = true := by
  obtain ⟨r, hreal, hd⟩ := document?_eq_some_iff.mp h
  exact canOpen_of_opened hreal hd

theorem document?_of_openFile {path : FilePath} {uri : Url}
    (h : openFile path c = (.ok uri, c')) :
    ∃ d, c'.document? path = some d := by
  obtain ⟨r, d, hreal, hd, -⟩ := opened_of_openFile h
  have hdisk := (opening_openFile path c).disk
  rw [h] at hdisk
  exact ⟨d, document?_eq_some_iff.mpr ⟨r, hdisk ▸ hreal, hd⟩⟩

theorem Opening.document? (h : Opening c c') {path : FilePath}
    {d : OpenDocument} (hd : c.document? path = some d) :
    c'.document? path = some d := by
  obtain ⟨r, hreal, hopened⟩ := document?_eq_some_iff.mp hd
  exact document?_eq_some_iff.mpr ⟨r, h.disk ▸ hreal, h.opened hopened⟩

/-! # Opening on a connection that works -/

/-- A change that at most opens files, and opens them only as long as the
connection works. -/
structure LiveOpening (c c' : Client σ) : Prop extends Opening c c' where
  broken : c'.connection.broken = c.connection.broken
  live : ∀ r, c'.documents.table.find? r ≠ c.documents.table.find? r → c.IsLive

namespace LiveOpening

theorem refl (c : Client σ) : LiveOpening c c :=
  ⟨.refl c, rfl, fun _ h => absurd rfl h⟩

theorem isLive (h : LiveOpening c c') (hlive : c'.IsLive) : c.IsLive :=
  ⟨h.closed hlive.1, h.broken ▸ hlive.2⟩

theorem trans (hab : LiveOpening a b) (hbc : LiveOpening b c) :
    LiveOpening a c := by
  refine ⟨hab.toOpening.trans hbc.toOpening, hbc.broken.trans hab.broken, ?_⟩
  intro r hchanged
  by_cases hfirst : b.documents.table.find? r = a.documents.table.find? r
  · rw [← hfirst] at hchanged
    exact hab.isLive (hbc.live r hchanged)
  · exact hab.live r hfirst

theorem canOpen_before (h : LiveOpening c c') {path : FilePath}
    (hlater : c'.canOpen path = true) :
    c.canOpen path = true := by
  obtain ⟨r, d, hreal, hstate⟩ := canOpen_iff.mp hlater
  rw [h.disk] at hreal hstate
  rcases h.entry r with hsame | ⟨hnone, e, -, hopened, -, hload⟩
  · rw [hsame] at hstate
    rcases hstate with hd | ⟨hnone, hload, hlive⟩
    · exact canOpen_of_opened hreal hd
    · exact canOpen_of_load (h.isLive hlive) hreal hnone hload
  · have hlive : c.IsLive := by
      apply h.live r
      rw [hopened, hnone]
      exact nofun
    exact canOpen_of_load hlive hreal hnone hload

/-- Whatever could be opened before can be opened as long as the connection is
there. -/
theorem canOpen_after (h : LiveOpening c c')
    (hopen : c'.connection.closed = false) {path : FilePath}
    (hbefore : c.canOpen path = true) : c'.canOpen path = true := by
  obtain ⟨r, d, hreal, hd | ⟨hnone, hload, hlive⟩⟩ := canOpen_iff.mp hbefore
  · rw [← h.disk] at hreal
    exact canOpen_of_opened hreal (h.opened hd)
  · rw [← h.disk] at hreal hload
    rcases h.entry r with hsame | ⟨-, e, -, hopened, -⟩
    · exact canOpen_of_load ⟨hopen, h.broken.trans hlive.2⟩ hreal
        (hsame.trans hnone) hload
    · exact canOpen_of_opened hreal hopened

theorem canOpen_eq (h : LiveOpening c c') (hopen : c'.connection.closed = false)
    (path : FilePath) :
    c'.canOpen path = c.canOpen path := by
  rw [Bool.eq_iff_iff]
  exact ⟨h.canOpen_before, h.canOpen_after hopen⟩

end LiveOpening

/-! # What does not open files -/

theorem permits_broken :
    Permits fun c c' : Client σ =>
      c'.connection.broken = c.connection.broken := by
  constructor
  · intro a b c hab hbc
    exact hbc.trans hab
  · intro c c' _ _ hdocuments _ _
    rw [connection, hdocuments, connection]
  · intro frame c
    exact Connection.dispatch_broken c.connection frame
  · intro c
    exact Connection.close_broken c.connection

theorem broken_callUntil (deadline limit : Nat) (method : String)
    (params : Json) (c : Client σ) :
    (c.callUntil deadline limit method params).2.connection.broken =
      c.connection.broken := by
  have hstart := Connection.startCall_broken c.connection method params
  unfold callUntil
  split
  · next f connection heq =>
      rw [heq] at hstart
      exact hstart
  · next id connection heq =>
      rw [heq] at hstart
      have hwait :=
        permits_broken.waitUntil (fun c => (c.connection.reply? id).isSome)
        (min deadline (c.clock + limit)) (c.onConnection fun _ => connection)
      exact (Connection.release_broken _ id).trans (hwait.trans hstart)

theorem liveOpening_call (method : String) (params : Json) (c : Client σ) :
    LiveOpening c (call method params c).2 := by
  have hundisturbed : Undisturbed c (call method params c).2 :=
    undisturbed_callUntil _ _ method params c
  refine ⟨hundisturbed.opening, broken_callUntil _ _ method params c, ?_⟩
  intro q hchanged
  rw [hundisturbed.table] at hchanged
  exact absurd rfl hchanged

/-! # Asking -/

theorem liveOpening_openFile (path : FilePath) (c : Client σ) :
    LiveOpening c (openFile path c).2 := by
  have hopening := opening_openFile path c
  rw [openFile_apply] at hopening ⊢
  refine ⟨hopening, Documents.openFile_broken c.disk path c.documents, ?_⟩
  intro q hchanged
  rcases Documents.openFile_cases c.disk path c.documents with
    ⟨r, d, -, -, heq⟩ | ⟨r, d, -, -, -, hlive, -⟩ | ⟨f, connection, heq, -⟩
  · rw [heq] at hchanged
    exact absurd rfl hchanged
  · exact hlive
  · rw [heq] at hchanged
    exact absurd rfl hchanged

theorem liveOpening_bind {α β : Type} {step : ClientM σ α}
    {next : α → ClientM σ β} (hstep : LiveOpening c (step c).2)
    (hnext : ∀ a c, LiveOpening c (next a c).2) :
    LiveOpening c ((step >>= next) c).2 := by
  rw [bind_apply]
  cases heq : step c with
  | mk r after =>
      rw [heq] at hstep
      cases r with
      | ok a =>
          exact hstep.trans (hnext a after)
      | error f =>
          exact hstep

theorem liveOpening_request {α : Type} (r : Request α) (params : Json)
    (c : Client σ) :
    LiveOpening c (request r params c).2 := by
  refine liveOpening_bind (liveOpening_call r.method params c) ?_
  intro answer later
  cases r.decode? answer <;> exact .refl later

theorem liveOpening_askDocument {α : Type} (r : Request α) (path : FilePath)
    (c : Client σ) :
    LiveOpening c (askDocument r path c).2 :=
  liveOpening_bind (liveOpening_openFile path c) fun _ =>
    liveOpening_request r _

theorem liveOpening_askPlace {α : Type} (r : Request α) (path : FilePath)
    (p : Position) (members : Members) (c : Client σ) :
    LiveOpening c (askPlace r path p members c).2 :=
  liveOpening_bind (liveOpening_openFile path c) fun _ =>
    liveOpening_request r _

theorem liveOpening_documentSymbols (path : FilePath) (c : Client σ) :
    LiveOpening c (documentSymbols path c).2 :=
  liveOpening_askDocument Request.documentSymbols path c

theorem liveOpening_definition (path : FilePath) (p : Position) (c : Client σ) :
    LiveOpening c (definition path p c).2 :=
  liveOpening_bind (liveOpening_askPlace Request.definition path p [] c)
    fun _ => .refl

theorem liveOpening_references (path : FilePath) (p : Position)
    (includeDeclaration : Bool) (c : Client σ) :
    LiveOpening c (references path p includeDeclaration c).2 :=
  liveOpening_bind (liveOpening_askPlace Request.references path p _ c) fun _ =>
    .refl

end Client
end CodeIntel
