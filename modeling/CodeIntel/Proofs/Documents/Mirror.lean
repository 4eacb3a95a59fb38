import CodeIntel.Proofs.Connection.Slots
import CodeIntel.Proofs.Mock.Documents
import CodeIntel.Proofs.Url.FilePath

/-!
# Documents on both sides of a connection

A run of operations on documents, with any disk at each of them, while the
connection is used for other things and may go away at any point. What the
server has heard then agrees with the table of documents: each open document is
open there with the same version and text, and nothing else is, as long as the
connection lives.

The invariant is `Mirrors`. It carries the URL of each open document along with
it, since an operation on one document leaves the others alone only because
their URLs differ.
-/

namespace CodeIntel

open Documents (openMethod changeMethod closeMethod openParams changeParams
  closeParams)

/-! # Hearing of documents -/

namespace Mock.Server

def isDocumentMethod (method : String) : Bool :=
  method = openMethod || method = changeMethod || method = closeMethod

def hear (s : Server) : Message → Server
  | .notification method params =>
    if isDocumentMethod method then s.handleNotification method params else s
  | _ => s

/-- Handles the notifications about documents among the messages on a wire, in
their order. -/
def hearAll (s : Server) (wire : List Message) : Server :=
  wire.foldl hear s

theorem hearAll_append (s : Server) (wire more : List Message) :
    s.hearAll (wire ++ more) = (s.hearAll wire).hearAll more :=
  List.foldl_append

theorem hearAll_snoc (s : Server) (wire : List Message) (m : Message) :
    s.hearAll (wire ++ [m]) = (s.hearAll wire).hear m :=
  hearAll_append s wire [m]

theorem hear_open (s : Server) (params : Json) :
    s.hear (.notification openMethod params) = s.noteOpen params := rfl

theorem hear_change (s : Server) (params : Json) :
    s.hear (.notification changeMethod params) = s.noteChange params := rfl

theorem hear_close (s : Server) (params : Json) :
    s.hear (.notification closeMethod params) = s.noteClose params := rfl

end Mock.Server

/-! # Runs -/

/-- What happens next: an operation on documents, on the disk as it is by then,
or some other use of the connection. -/
inductive DocumentStep where
  | openFile (disk : Disk) (path : FilePath)
  | reopenFile (disk : Disk) (path : FilePath)
  | changeFile (disk : Disk) (path : FilePath) (content : String)
  | closeFile (disk : Disk) (path : FilePath)
  | closeAll
  | call (method : String) (params : Json)
  | dispatch (frame : Json)
  | breakPipe
  | close

namespace Documents

def onConnection (s : Documents) (change : Connection → Connection) :
    Documents :=
  { s with connection := change s.connection }

def step (s : Documents) : DocumentStep → Documents
  | .openFile disk path => (s.openFile disk path).2
  | .reopenFile disk path => (s.reopenFile disk path).2
  | .changeFile disk path content => (s.changeFile disk path content).2
  | .closeFile disk path => (s.closeFile disk path).2
  | .closeAll => s.closeAll.2
  | .call method params => s.onConnection fun c => (c.startCall method params).2
  | .dispatch frame => s.onConnection (·.dispatch frame)
  | .breakPipe => s.onConnection Connection.breakPipe
  | .close => s.onConnection Connection.close

def run (s : Documents) (steps : List DocumentStep) : Documents :=
  steps.foldl step s

end Documents

/-! # The invariant -/

/-- Whether the server shows a document as it was last told to us. -/
def Shows (doc : Mock.Document) (d : OpenDocument) : Prop :=
  doc.isOpen = true ∧ doc.version = OpenDocument.wireVersion d.version ∧
    doc.text = d.content

/-- The documents and what a server has heard of them agree. -/
structure Mirrors (s : Documents) (server : Mock.Server) : Prop where
  named : ∀ path d, s.table.find? path = some (.opened d) →
    path.IsReal ∧ Url.ofPath? path = some d.uri
  known : ∀ path d, s.table.find? path = some (.opened d) →
    ∃ doc, server.document? d.uri.text = some doc ∧ Shows doc d
  noOther :
    s.connection.closed = false → ∀ uri doc, server.document? uri = some doc →
    doc.isOpen = true → ∃ path d, s.table.find? path = some (.opened d) ∧
    d.uri.text = uri

namespace Mirrors

variable {s : Documents} {server server' : Mock.Server} {path other : FilePath}
  {d e : OpenDocument}

theorem uri_ne (h : Mirrors s server) (hreal : path.IsReal)
    (huri : Url.ofPath? path = some d.uri)
    (hother : s.table.find? other = some (.opened e)) (hne : other ≠ path) :
    e.uri.text ≠ d.uri.text := by
  obtain ⟨hreal', huri'⟩ := h.named other e hother
  intro htext
  have heq : e.uri = d.uri := by
    cases he : e.uri
    cases hd : d.uri
    rw [he, hd] at htext
    exact congrArg Url.mk htext
  exact hne (Url.ofPath?_injOn_isReal hreal' hreal (by rw [huri', huri, heq]))

theorem set_opened (h : Mirrors s server) (hreal : path.IsReal)
    (huri : Url.ofPath? path = some d.uri) {doc : Mock.Document}
    (hshows : Shows doc d)
    (hdoc : ∀ uri, server'.document? uri =
      if uri = d.uri.text then some doc else server.document? uri)
    {c : Connection} (hclosed : c.closed = s.connection.closed) :
    Mirrors { connection := c, table := s.table.set path (.opened d) }
      server' := by
  have hfind (p : FilePath) (hne : p ≠ path) :=
    DocumentTable.find?_set_of_ne hne (.opened d) s.table
  have hself := DocumentTable.find?_set_self path (.opened d) s.table
  constructor
  · intro p f hp
    by_cases hpath : p = path
    · subst hpath
      obtain rfl : d = f := by simpa [hself] using hp
      exact ⟨hreal, huri⟩
    · exact h.named p f ((hfind p hpath).symm.trans hp)
  · intro p f hp
    by_cases hpath : p = path
    · subst hpath
      obtain rfl : d = f := by simpa [hself] using hp
      exact ⟨doc, by rw [hdoc, if_pos rfl], hshows⟩
    · have hp' := (hfind p hpath).symm.trans hp
      rw [hdoc, if_neg (h.uri_ne hreal huri hp' hpath)]
      exact h.known p f hp'
  · intro hopen uri doc' huri' hdoc'
    rw [hdoc] at huri'
    by_cases heq : uri = d.uri.text
    · exact ⟨path, d, hself, heq.symm⟩
    · rw [if_neg heq] at huri'
      obtain ⟨p, f, hp, hf⟩ := h.noOther (hclosed ▸ hopen) uri doc' huri' hdoc'
      have hne : p ≠ path := by
        rintro rfl
        have hsame := (h.named p f hp).2.symm.trans huri
        exact heq (by rw [← hf, Option.some.inj hsame])
      exact ⟨p, f, (hfind p hne).trans hp, hf⟩

/-- A document is closed on our side. The server either hears of it, or the
connection is gone. -/
theorem set_closed (h : Mirrors s server)
    (hd : s.table.find? path = some (.opened d))
    (hdoc : ∀ uri, uri ≠ d.uri.text →
      server'.document? uri = server.document? uri)
    {c : Connection}
    (hheard : c.closed = false → s.connection.closed = false ∧
      ∀ doc, server'.document? d.uri.text = some doc → doc.isOpen = false) :
    Mirrors { connection := c, table := s.table.set path .closed } server' := by
  obtain ⟨hreal, huri⟩ := h.named path d hd
  have hfind {p : FilePath} {f : OpenDocument}
      (hp : (s.table.set path .closed).find? p = some (.opened f)) :
      p ≠ path ∧ s.table.find? p = some (.opened f) := by
    have hne : p ≠ path := by
      rintro rfl
      rw [DocumentTable.find?_set_self] at hp
      simp at hp
    have hsame := DocumentTable.find?_set_of_ne hne .closed s.table
    exact ⟨hne, hsame.symm.trans hp⟩
  constructor
  · intro p f hp
    exact h.named p f (hfind hp).2
  · intro p f hp
    obtain ⟨hne, hp'⟩ := hfind hp
    rw [hdoc _ (h.uri_ne hreal huri hp' hne)]
    exact h.known p f hp'
  · intro hopen uri doc huri' hdoc'
    obtain ⟨hwas, hgone⟩ := hheard hopen
    have hne : uri ≠ d.uri.text := by
      rintro rfl
      rw [hgone doc huri'] at hdoc'
      exact Bool.noConfusion hdoc'
    rw [hdoc uri hne] at huri'
    obtain ⟨p, f, hp, hf⟩ := h.noOther hwas uri doc huri' hdoc'
    have hpath : p ≠ path := by
      rintro rfl
      rw [hd] at hp
      obtain rfl : d = f := by simpa using hp
      exact hne hf.symm
    have hsame := DocumentTable.find?_set_of_ne hpath .closed s.table
    exact ⟨p, f, hsame.trans hp, hf⟩

theorem of_connection (h : Mirrors s server) {c : Connection}
    (hclosed : c.closed = false → s.connection.closed = false) :
    Mirrors { s with connection := c } server :=
  ⟨h.named, h.known, fun hopen => h.noOther (hclosed hopen)⟩

end Mirrors

/-! # Notifications -/

namespace Documents

theorem notify_cases (s : Documents) (method : String) (params : Json) :
    (s.connection.closed = false ∧
      s.notify method params =
        (.ok (), { s with connection := { s.connection with
        wire := s.connection.wire ++ [.notification method params] } })) ∨
    (∃ f c, s.notify method params = (.error f, { s with connection := c }) ∧
      c.closed = true ∧ c.wire = s.connection.wire) := by
  unfold notify Connection.notify
  rcases Connection.write_cases s.connection (.notification method params) with
    ⟨hopen, -, heq⟩ | ⟨-, -, heq⟩ | ⟨hclosed, heq⟩
  · exact Or.inl ⟨hopen, by rw [heq]⟩
  · exact Or.inr ⟨_, _, by rw [heq], Connection.close_closed _,
      Connection.close_wire _⟩
  · exact Or.inr ⟨_, _, by rw [heq], hclosed, rfl⟩

def heardBy (s : Documents) (server : Mock.Server) : Mock.Server :=
  server.hearAll s.connection.wire

/-- The documents agree with a server that has heard all we wrote. -/
def IsMirrored (s : Documents) (server : Mock.Server) : Prop :=
  Mirrors s (s.heardBy server)

variable {s : Documents} {server : Mock.Server} {disk : Disk} {path : FilePath}
  {d : OpenDocument}

theorem IsMirrored.of_failed (h : s.IsMirrored server) {c : Connection}
    (hclosed : c.closed = true) (hwire : c.wire = s.connection.wire) :
    IsMirrored { s with connection := c } server := by
  unfold IsMirrored heardBy
  rw [hwire]
  exact Mirrors.of_connection h fun hopen => by simp [hclosed] at hopen

/-! # Opening -/

theorem uri_of_load (h : load disk path = .ok d) :
    Url.ofPath? path = some d.uri := by
  unfold load at h
  split at h
  · simp at h
  · simp at h
  · next content uri hread huri =>
      rw [huri]
      obtain rfl :
          OpenDocument.mk path uri (Language.ofPath path) 1 content = d := by
        simpa using h
      rfl

theorem isReal_of_canonical {p : FilePath} (h : canonical disk path = .ok p) :
    p.IsReal := by
  unfold canonical at h
  split at h
  · next q hq =>
      obtain rfl : q = p := by simpa using h
      exact Disk.isReal_of_realPath hq
  · simp at h

theorem IsMirrored.sendOpen (h : s.IsMirrored server) (hreal : path.IsReal) :
    (Documents.sendOpen disk path s).2.IsMirrored server := by
  unfold Documents.sendOpen
  split
  · exact h
  · next d hload =>
      rcases notify_cases s openMethod (openParams d) with
        ⟨hopen, heq⟩ | ⟨f, c, heq, hclosed, hwire⟩
      · rw [heq]
        obtain ⟨opens, hdoc⟩ := (s.heardBy server).document?_noteOpen d
        have hheard := Mock.Server.hearAll_snoc server s.connection.wire
          (.notification openMethod (openParams d))
        rw [Mock.Server.hear_open] at hheard
        unfold IsMirrored heardBy
        simp only [setState]
        rw [hheard]
        exact Mirrors.set_opened h hreal (uri_of_load hload)
          ⟨rfl, rfl, rfl⟩ hdoc rfl
      · rw [heq]
        exact h.of_failed hclosed hwire

theorem IsMirrored.openFile (h : s.IsMirrored server) :
    (Documents.openFile disk path s).2.IsMirrored server := by
  unfold Documents.openFile
  split
  · exact h
  · next real hreal =>
      split
      · exact h
      · exact h
      · exact h.sendOpen (isReal_of_canonical hreal)

theorem IsMirrored.reopenFile (h : s.IsMirrored server) :
    (Documents.reopenFile disk path s).2.IsMirrored server := by
  unfold Documents.reopenFile
  split
  · exact h
  · next real hreal =>
      split
      · exact h
      · exact h.sendOpen (isReal_of_canonical hreal)

/-! # Changing -/

theorem IsMirrored.changeFile (h : s.IsMirrored server) (content : String) :
    (Documents.changeFile disk path content s).2.IsMirrored server := by
  unfold Documents.changeFile
  split
  · exact h
  · next real hreal =>
      split
      · next d hd =>
          rcases notify_cases s changeMethod
              (changeParams d.uri (d.version + 1) content) with
            ⟨hopen, heq⟩ | ⟨f, c, heq, hclosed, hwire⟩
          · obtain ⟨hpath, huri⟩ := h.named real d hd
            -- the server knows the document, so that the change reaches one
            -- that is open
            obtain ⟨doc, hdoc, hisOpen, -, -⟩ := h.known real d hd
            let changed : OpenDocument :=
              { d with version := d.version + 1, content := content }
            let told : Mock.Document :=
              { doc with
                version :=
                  OpenDocument.wireVersion (d.version + 1), text := content }
            have hshows : Shows told changed := ⟨hisOpen, rfl, rfl⟩
            have hchange : ∀ uri, ((s.heardBy server).noteChange
                (changeParams d.uri (d.version + 1) content)).document? uri =
                  if uri = changed.uri.text then some told
                  else (s.heardBy server).document? uri := by
              intro uri
              rw [(s.heardBy server).document?_noteChange, hdoc,
                Option.map_some]
            have hheard := Mock.Server.hearAll_snoc server s.connection.wire
              (.notification changeMethod
                (changeParams d.uri (d.version + 1) content))
            rw [Mock.Server.hear_change] at hheard
            simp only [heq]
            unfold IsMirrored heardBy
            simp only [setState]
            rw [hheard]
            exact Mirrors.set_opened (d := changed) h hpath huri hshows
              hchange rfl
          · simp only [heq]
            exact h.of_failed hclosed hwire
      · exact h
      · exact h

/-! # Closing -/

theorem IsMirrored.closeFile (h : s.IsMirrored server) :
    (Documents.closeFile disk path s).2.IsMirrored server := by
  unfold Documents.closeFile
  split
  · exact h
  · next real hreal =>
      split
      · next d hd =>
          rcases notify_cases (s.setState real .closed) closeMethod
              (closeParams d.uri) with
            ⟨hopen, heq⟩ | ⟨f, c, heq, hclosed, hwire⟩
          · have hclose := (s.heardBy server).document?_noteClose d.uri
            have hheard := Mock.Server.hearAll_snoc server s.connection.wire
              (.notification closeMethod (closeParams d.uri))
            rw [Mock.Server.hear_close] at hheard
            rw [heq]
            unfold IsMirrored heardBy
            simp only [setState]
            rw [hheard]
            refine Mirrors.set_closed h hd (fun uri hne => ?_) fun _ =>
              ⟨hopen, ?_⟩
            · exact (hclose uri).trans (if_neg hne)
            · intro doc hdoc
              have hself := (hclose d.uri.text).symm.trans hdoc
              rw [if_pos rfl, Option.map_eq_some_iff] at hself
              obtain ⟨before, -, rfl⟩ := hself
              rfl
          -- nothing is written, but for us the document is closed
          · rw [heq]
            unfold IsMirrored heardBy
            simp only [hwire]
            refine Mirrors.set_closed h hd (fun uri _ => rfl) fun hopen => ?_
            simp [hclosed] at hopen
      · exact h

theorem find?_closeEach (path : FilePath) (t : DocumentTable) :
    t.closeEach.find? path = (t.find? path).map fun _ => .closed := by
  induction t with
  | nil =>
      rfl
  | cons entry rest ih =>
      obtain ⟨p, state⟩ := entry
      by_cases hp : p = path
      · simp [DocumentTable.closeEach, DocumentTable.find?, hp]
      · simpa [DocumentTable.closeEach, DocumentTable.find?, hp] using ih

theorem mem_opened_of_find? {t : DocumentTable}
    (h : t.find? path = some (.opened d)) :
    d ∈ t.opened := by
  induction t with
  | nil =>
      simp [DocumentTable.find?] at h
  | cons entry rest ih =>
      obtain ⟨p, state⟩ := entry
      rw [DocumentTable.find?] at h
      split at h
      · obtain rfl : state = .opened d := by simpa using h
        exact List.mem_cons_self
      · have hrest := ih h
        rw [DocumentTable.opened, List.filterMap_cons]
        split
        · exact hrest
        · exact List.mem_cons_of_mem _ hrest

/-- After closing notifications for some URLs, if the connection lives, the
server has no document open that it had not open before, and none under those
URLs. -/
theorem sendCloses_spec (server : Mock.Server) (uris : List Url)
    (s : Documents) :
    (sendCloses s uris).table = s.table ∧
    ((sendCloses s uris).connection.closed = false →
      s.connection.closed = false ∧
      ∀ uri doc, ((sendCloses s uris).heardBy server).document? uri = some doc →
        doc.isOpen = true →
        (s.heardBy server).document? uri = some doc ∧
        ∀ u ∈ uris, u.text ≠ uri) := by
  induction uris generalizing s with
  | nil =>
      exact ⟨rfl, fun hopen =>
        ⟨hopen, fun uri doc hdoc _ => ⟨hdoc, fun u hu => nomatch hu⟩⟩⟩
  | cons u rest ih =>
      have hfold : sendCloses s (u :: rest) =
          sendCloses (s.notify closeMethod (closeParams u)).2 rest := rfl
      rw [hfold]
      rcases notify_cases s closeMethod (closeParams u) with
        ⟨hopen, heq⟩ | ⟨f, c, heq, hclosed, hwire⟩
      · rw [heq]
        obtain ⟨htable, hrest⟩ := ih { s with
          connection := { s.connection with
            wire := s.connection.wire ++
              [.notification closeMethod (closeParams u)] } }
        refine ⟨htable, fun hlive => ⟨hopen, fun uri doc hdoc hisOpen => ?_⟩⟩
        obtain ⟨hbefore, hothers⟩ := (hrest hlive).2 uri doc hdoc hisOpen
        have hheard := Mock.Server.hearAll_snoc server s.connection.wire
          (.notification closeMethod (closeParams u))
        rw [Mock.Server.hear_close] at hheard
        have hclose := (s.heardBy server).document?_noteClose u uri
        rw [heardBy, hheard, ← heardBy, hclose] at hbefore
        by_cases hu : uri = u.text
        · rw [if_pos hu, Option.map_eq_some_iff] at hbefore
          obtain ⟨before, -, rfl⟩ := hbefore
          exact Bool.noConfusion hisOpen
        · rw [if_neg hu] at hbefore
          refine ⟨hbefore, fun v hv => ?_⟩
          rcases List.mem_cons.mp hv with rfl | hv
          · exact Ne.symm hu
          · exact hothers v hv
      · rw [heq]
        obtain ⟨htable, hrest⟩ := ih { s with connection := c }
        refine ⟨htable, fun hlive => ?_⟩
        have hfalse := (hrest hlive).1
        simp [hclosed] at hfalse

theorem IsMirrored.closeAll (h : s.IsMirrored server) :
    (Documents.closeAll s).2.IsMirrored server := by
  obtain ⟨htable, hlive⟩ :=
    sendCloses_spec server (s.table.opened.map OpenDocument.uri)
    { s with table := s.table.closeEach }
  have hnone (p : FilePath) (f : OpenDocument) :
      (Documents.closeAll s).2.table.find? p ≠ some (.opened f) := by
    intro hp
    rw [Documents.closeAll, htable, find?_closeEach,
      Option.map_eq_some_iff] at hp
    obtain ⟨_, _, hp⟩ := hp
    exact DocumentState.noConfusion hp
  refine ⟨fun p f hp =>
    absurd hp (hnone p f), fun p f hp => absurd hp (hnone p f), ?_⟩
  intro hopen uri doc hdoc hisOpen
  obtain ⟨hwas, hclosed⟩ := hlive hopen
  obtain ⟨hbefore, hothers⟩ := hclosed uri doc hdoc hisOpen
  obtain ⟨p, f, hp, hf⟩ := h.noOther hwas uri doc hbefore hisOpen
  exact absurd hf (hothers f.uri (List.mem_map_of_mem (mem_opened_of_find? hp)))

/-! # Other uses of the connection -/

/-- A use of a connection that tells the server nothing of documents. It may end
the connection. -/
structure Bystands (c c' : Connection) : Prop where
  heard : ∀ server : Mock.Server, server.hearAll c'.wire = server.hearAll c.wire
  closed : c'.closed = false → c.closed = false

theorem Bystands.refl (c : Connection) : Bystands c c :=
  ⟨fun _ => rfl, id⟩

theorem Bystands.trans {a b c : Connection} (hab : Bystands a b)
    (hbc : Bystands b c) :
    Bystands a c :=
  ⟨fun server => (hbc.heard server).trans (hab.heard server),
    hab.closed ∘ hbc.closed⟩

theorem Bystands.of_wire {c c' : Connection} (hwire : c'.wire = c.wire)
    (hclosed : c'.closed = c.closed) : Bystands c c' :=
  ⟨fun _ => by rw [hwire], fun h => hclosed ▸ h⟩

theorem bystands_close (c : Connection) : Bystands c c.close :=
  ⟨fun _ => by rw [Connection.close_wire], fun h => by simp at h⟩

theorem bystands_write (c : Connection) {m : Message}
    (hm : ∀ server : Mock.Server, server.hear m = server) :
    Bystands c (c.write m).2 := by
  rcases Connection.write_cases c m with ⟨-, -, heq⟩ | ⟨-, -, heq⟩ | ⟨-, heq⟩
  · rw [heq]
    exact ⟨fun server => by rw [Mock.Server.hearAll_snoc, hm], id⟩
  · rw [heq]
    exact bystands_close c
  · rw [heq]
    exact Bystands.refl c

theorem hear_response (server : Mock.Server) (id : Json) (method : String)
    (params : Json) :
    server.hear (Connection.response id method params) = server := by
  unfold Connection.response
  split <;> rfl

theorem bystands_dispatch (c : Connection) (frame : Json) :
    Bystands c (c.dispatch frame) := by
  unfold Connection.dispatch
  split
  · exact Bystands.of_wire (Connection.complete_wire c _ _)
      (Connection.complete_closed c _ _)
  · exact Bystands.of_wire rfl rfl
  · exact bystands_write c fun server => hear_response server _ _ _
  · exact Bystands.refl c

theorem bystands_startCall (c : Connection) (method : String) (params : Json) :
    Bystands c (c.startCall method params).2 := by
  rcases Connection.startCall_cases c method params with
    ⟨-, -, heq⟩ | ⟨-, -, heq⟩ | ⟨-, heq⟩
  · rw [heq]
    refine ⟨fun server => ?_, fun hlive => ?_⟩
    · exact (Mock.Server.hearAll_snoc server c.wire _).trans rfl
    · exact (Connection.entered_closed c).symm.trans hlive
  · rw [heq]
    have hentered : Bystands c c.entered :=
      Bystands.of_wire (Connection.entered_wire c) (Connection.entered_closed c)
    exact (hentered.trans (bystands_close _)).trans
      (Bystands.of_wire (Connection.release_wire _ _)
        (Connection.release_closed _ _))
  · rw [heq]
    exact Bystands.refl c

theorem IsMirrored.onConnection (h : s.IsMirrored server)
    (change : Connection → Connection)
    (hchange : Bystands s.connection (change s.connection)) :
    (s.onConnection change).IsMirrored server := by
  unfold IsMirrored heardBy Documents.onConnection
  rw [hchange.heard server]
  exact Mirrors.of_connection h hchange.closed

/-! # Every run -/

theorem IsMirrored.step (h : s.IsMirrored server) (st : DocumentStep) :
    (s.step st).IsMirrored server := by
  cases st with
  | openFile disk path =>
      exact h.openFile
  | reopenFile disk path =>
      exact h.reopenFile
  | changeFile disk path content =>
      exact h.changeFile content
  | closeFile disk path =>
      exact h.closeFile
  | closeAll =>
      exact h.closeAll
  | call method params =>
      exact h.onConnection (fun c => (c.startCall method params).2)
        (bystands_startCall _ method params)
  | dispatch frame =>
      exact h.onConnection (·.dispatch frame) (bystands_dispatch _ frame)
  | breakPipe =>
      exact h.onConnection _ (Bystands.of_wire rfl rfl)
  | close =>
      exact h.onConnection _ (bystands_close _)

theorem IsMirrored.run (h : s.IsMirrored server) (steps : List DocumentStep) :
    (s.run steps).IsMirrored server := by
  induction steps generalizing s with
  | nil =>
      exact h
  | cons st rest ih =>
      exact ih (h.step st)

theorem isMirrored_empty (server : Mock.Server) :
    IsMirrored {} { server with documents := [] } := by
  constructor
  · intro path d hd
    exact absurd hd (by simp [DocumentTable.find?])
  · intro path d hd
    exact absurd hd (by simp [DocumentTable.find?])
  · intro _ uri doc hdoc
    exact absurd hdoc
      (by simp [heardBy, Mock.Server.hearAll, Mock.Server.document?,
        Mock.Fixture.under?])

/-- After any run, a server that began without documents and has heard the
notifications about documents in the order in which they were written has each
open document open under its URL, with its version and text; and while the
connection lives it has no other document open. -/
theorem server_mirrors_documents (steps : List DocumentStep)
    (server : Mock.Server) :
    let s := Documents.run {} steps
    let heard := { server with documents := [] }.hearAll s.connection.wire
    (∀ path d, s.table.find? path = some (.opened d) →
      ∃ doc, heard.document? d.uri.text = some doc ∧ doc.isOpen = true ∧
        doc.version = OpenDocument.wireVersion d.version ∧
        doc.text = d.content) ∧
    (s.connection.closed = false → ∀ uri doc, heard.document? uri = some doc →
      doc.isOpen = true → ∃ path d, s.table.find? path = some (.opened d) ∧
      d.uri.text = uri) := by
  have h := (isMirrored_empty server).run steps
  exact ⟨h.known, h.noOther⟩

end Documents

end CodeIntel
