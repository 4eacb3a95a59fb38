import CodeIntel.Proofs.Connection.Sending
import CodeIntel.Proofs.Disk.Writing
import CodeIntel.Proofs.Documents.Mirror

/-!
# What an operation on a document comes to

Opening or changing a file either does what it is to do to the one entry under
the real path of the file, or leaves the table as it was. A change of an open
document fails only with the connection. Whatever is done to documents, the
server is at most notified.
-/

namespace CodeIntel

namespace Connection

def IsLive (c : Connection) : Prop :=
  c.closed = false ∧ c.broken = false

def told (c : Connection) (method : String) (params : Json) : Connection :=
  { c with wire := c.wire ++ [.notification method params] }

end Connection

namespace Documents

variable {disk : Disk} {path : FilePath} {s : Documents}

theorem canonical_eq_ok_iff {r : FilePath} :
    canonical disk path = .ok r ↔ disk.realPath path = .ok r := by
  unfold canonical
  constructor
  · intro h
    split at h
    · next p hp =>
        rw [hp, Except.ok.inj h]
    · exact nomatch h
  · intro h
    rw [h]

theorem readText_of_load {r : FilePath} {d : OpenDocument}
    (h : load disk r = .ok d) :
    disk.readText r = .ok d.content := by
  unfold load at h
  split at h
  · exact nomatch h
  · exact nomatch h
  · next content uri hread huri =>
      rw [hread, ← Except.ok.inj h]

theorem version_of_load {r : FilePath} {d : OpenDocument}
    (h : load disk r = .ok d) :
    d.version = 1 := by
  unfold load at h
  split at h
  · exact nomatch h
  · exact nomatch h
  · next content uri hread huri =>
      rw [← Except.ok.inj h]

/-! # URLs of open documents -/

/-- Each open document has the URL of its real path. This holds of all documents
that were opened. -/
def IsNamed (s : Documents) : Prop :=
  ∀ path d, s.table.find? path = some (.opened d) →
    path.IsReal ∧ Url.ofPath? path = some d.uri

/-- Different open documents have different URLs. -/
theorem IsNamed.uri_ne (h : s.IsNamed) {r q : FilePath} {d e : OpenDocument}
    (hd : s.table.find? r = some (.opened d))
    (he : s.table.find? q = some (.opened e)) (hne : q ≠ r) :
    e.uri ≠ d.uri := by
  obtain ⟨hr, hdr⟩ := h r d hd
  obtain ⟨hq, heq⟩ := h q e he
  intro huri
  exact hne (Url.ofPath?_injOn_isReal hq hr (by rw [heq, hdr, huri]))

/-! # Telling -/

theorem notify_outcome (s : Documents) (method : String) (params : Json) :
    (s.connection.IsLive ∧
      s.notify method params =
        (.ok (), { s with connection := s.connection.told method params })) ∨
    (∃ f c, s.notify method params = (.error f, { s with connection := c }) ∧
      c.closed = true ∧ c.wire = s.connection.wire) := by
  unfold notify Connection.notify
  rcases Connection.write_cases s.connection (.notification method params) with
    ⟨hopen, hbroken, heq⟩ | ⟨-, -, heq⟩ | ⟨hclosed, heq⟩
  · exact .inl ⟨⟨hopen, hbroken⟩, by rw [heq]; rfl⟩
  · exact .inr ⟨_, _, by rw [heq], Connection.close_closed _,
      Connection.close_wire _⟩
  · exact .inr ⟨_, _, by rw [heq], hclosed, rfl⟩

theorem notify_of_live (hlive : s.connection.IsLive) (method : String)
    (params : Json) :
    s.notify method params =
      (.ok (), { s with connection := s.connection.told method params }) := by
  simp only [notify, Connection.notify, Connection.write, Connection.checkOpen,
    Connection.put?, hlive.1, hlive.2, Bool.false_eq_true, if_false,
    Connection.told]

/-! # Opening -/

theorem openFile_of_opened {r : FilePath} {d : OpenDocument}
    (hreal : disk.realPath path = .ok r)
    (hopened : s.table.find? r = some (.opened d)) :
    openFile disk path s = (.ok d.uri, s) := by
  simp only [openFile, canonical_eq_ok_iff.mpr hreal, hopened]

theorem openFile_cases (disk : Disk) (path : FilePath) (s : Documents) :
    (∃ r d, disk.realPath path = .ok r ∧ s.table.find? r = some (.opened d) ∧
      openFile disk path s = (.ok d.uri, s)) ∨
    (∃ r d, disk.realPath path = .ok r ∧ s.table.find? r = none ∧
      load disk r = .ok d ∧ s.connection.IsLive ∧
      openFile disk path s = (.ok d.uri,
        ⟨s.connection.told openMethod (openParams d),
          s.table.set r (.opened d)⟩)) ∨
    (∃ f c, openFile disk path s = (.error f, { s with connection := c }) ∧
      c.wire = s.connection.wire ∧
      (c.closed = false → s.connection.closed = false)) := by
  cases hcanonical : canonical disk path with
  | error f =>
      refine .inr (.inr ⟨f, s.connection, ?_, rfl, id⟩)
      simp only [openFile, hcanonical]
  | ok r =>
      have hreal := canonical_eq_ok_iff.mp hcanonical
      cases hstate : s.table.find? r with
      | some state =>
          cases state with
          | opened d =>
              exact .inl ⟨r, d, hreal, hstate, openFile_of_opened hreal hstate⟩
          | closed =>
              refine .inr (.inr ⟨.documentClosed r.text, s.connection,
                ?_, rfl, id⟩)
              simp only [openFile, hcanonical, hstate]
      | none =>
          cases hload : load disk r with
          | error f =>
              refine .inr (.inr ⟨f, s.connection, ?_, rfl, id⟩)
              simp only [openFile, hcanonical, hstate, sendOpen, hload]
          | ok d =>
              rcases notify_outcome s openMethod (openParams d) with
                ⟨hlive, heq⟩ | ⟨f, c, heq, hclosed, hwire⟩
              · refine .inr (.inl ⟨r, d, hreal, hstate, hload, hlive, ?_⟩)
                simp only [openFile, hcanonical, hstate, sendOpen, hload,
                  heq, setState]
              · refine .inr (.inr ⟨f, c, ?_, hwire, ?_⟩)
                · simp only [openFile, hcanonical, hstate, sendOpen, hload, heq]
                · intro hopen
                  rw [hclosed] at hopen
                  cases hopen

theorem openFile_of_load {r : FilePath} {d : OpenDocument}
    (hreal : disk.realPath path = .ok r) (hnone : s.table.find? r = none)
    (hload : load disk r = .ok d) (hlive : s.connection.IsLive) :
    openFile disk path s = (.ok d.uri,
      ⟨s.connection.told openMethod (openParams d),
        s.table.set r (.opened d)⟩) := by
  simp only [openFile, canonical_eq_ok_iff.mpr hreal, hnone, sendOpen, hload,
    notify_of_live hlive, setState]

theorem openFile_error_of_live {f : ClientFault} {s' : Documents}
    (hlive : s.connection.IsLive) (h : openFile disk path s = (.error f, s')) :
    s' = s := by
  unfold openFile at h
  split at h
  · exact (Prod.mk.inj h).2.symm
  · split at h
    · exact nomatch (Prod.mk.inj h).1
    · exact (Prod.mk.inj h).2.symm
    · unfold sendOpen at h
      split at h
      · exact (Prod.mk.inj h).2.symm
      · rw [notify_of_live hlive] at h
        exact nomatch (Prod.mk.inj h).1

/-- On connections that work, only the table decides which files are opened. -/
theorem openFile_congr_of_live {t : Documents} (hs : s.connection.IsLive)
    (ht : t.connection.IsLive) (htable : t.table = s.table) :
    (openFile disk path t).1 = (openFile disk path s).1 := by
  unfold openFile
  rw [htable]
  split
  · rfl
  · split
    · rfl
    · rfl
    · unfold sendOpen
      split
      · rfl
      · rw [notify_of_live hs, notify_of_live ht]

theorem openFile_after {q : FilePath} {uri : Url} {s' : Documents}
    (h : openFile disk path s = (.ok uri, s')) :
    (openFile disk q s').1 = (openFile disk q s).1 := by
  rcases openFile_cases disk path s with
    ⟨r, d, -, -, heq⟩ | ⟨r, d, -, hnone, hload, hlive, heq⟩ | ⟨f, c, heq, -, -⟩
  · rw [heq] at h
    rw [(Prod.mk.inj h).2]
  · rw [heq] at h
    have hlater : s'.connection.IsLive := (Prod.mk.inj h).2 ▸ hlive
    rw [← (Prod.mk.inj h).2] at hlater ⊢
    cases hcanonical : canonical disk q with
    | error f =>
        simp only [openFile, hcanonical]
    | ok t =>
        by_cases ht : t = r
        · subst ht
          rw [openFile_of_load (canonical_eq_ok_iff.mp hcanonical) hnone
            hload hlive, openFile_of_opened (canonical_eq_ok_iff.mp hcanonical)
              (DocumentTable.find?_set_self t (.opened d) s.table)]
        · simp only [openFile, hcanonical, DocumentTable.find?_set_of_ne ht]
          split
          · rfl
          · rfl
          · unfold sendOpen
            split
            · rfl
            · next e he =>
                rw [notify_of_live hlater, notify_of_live hlive]
  · rw [heq] at h
    exact nomatch (Prod.mk.inj h).1

/-! # Changing -/

theorem changeFile_of_opened {r : FilePath} {d : OpenDocument}
    (hreal : disk.realPath path = .ok r)
    (hd : s.table.find? r = some (.opened d)) (content : String)
    (hlive : s.connection.IsLive) :
    changeFile disk path content s = (.ok (d.version + 1),
      ⟨s.connection.told changeMethod
        (changeParams d.uri (d.version + 1) content),
        s.table.set r (.opened
          { d with version := d.version + 1, content := content })⟩) := by
  simp only [changeFile, canonical_eq_ok_iff.mpr hreal, hd,
    notify_of_live hlive, setState]

theorem changeFile_cases (disk : Disk) (path : FilePath) (content : String)
    (s : Documents) :
    (∃ r d, disk.realPath path = .ok r ∧ s.table.find? r = some (.opened d) ∧
      s.connection.IsLive ∧
      changeFile disk path content s = (.ok (d.version + 1),
        ⟨s.connection.told changeMethod
          (changeParams d.uri (d.version + 1) content),
          s.table.set r (.opened
            { d with version := d.version + 1, content := content })⟩)) ∨
    (∃ f c, changeFile disk path content s =
      (.error f, { s with connection := c }) ∧ c.wire = s.connection.wire ∧
      (c.closed = false → s.connection.closed = false) ∧
      ∀ r d, disk.realPath path = .ok r → s.table.find? r = some (.opened d) →
      c.closed = true) := by
  cases hcanonical : canonical disk path with
  | error f =>
      refine .inr ⟨f, s.connection, ?_, rfl, id, ?_⟩
      · simp only [changeFile, hcanonical]
      · intro r d hreal
        rw [canonical_eq_ok_iff.mpr hreal] at hcanonical
        exact nomatch hcanonical
  | ok r =>
      have hreal := canonical_eq_ok_iff.mp hcanonical
      cases hstate : s.table.find? r with
      | some state =>
          cases state with
          | opened d =>
              rcases notify_outcome s changeMethod
                  (changeParams d.uri (d.version + 1) content) with
                ⟨hlive, -⟩ | ⟨f, c, heq, hclosed, hwire⟩
              · exact .inl ⟨r, d, hreal, hstate, hlive,
                  changeFile_of_opened hreal hstate content hlive⟩
              · refine .inr ⟨f, c, ?_, hwire, ?_, fun _ _ _ _ => hclosed⟩
                · simp only [changeFile, hcanonical, hstate, heq]
                · intro hopen
                  rw [hclosed] at hopen
                  exact nomatch hopen
          | closed =>
              refine .inr ⟨.documentClosed r.text, s.connection, ?_,
                rfl, id, ?_⟩
              · simp only [changeFile, hcanonical, hstate]
              · intro q d hq hopened
                obtain rfl : r = q := Except.ok.inj (hreal.symm.trans hq)
                rw [hstate] at hopened
                exact nomatch hopened
      | none =>
          refine .inr ⟨.documentNotFound s!"{r.text} is not open", s.connection,
            ?_, rfl, id, ?_⟩
          · simp only [changeFile, hcanonical, hstate]
          · intro q d hq hopened
            obtain rfl : r = q := Except.ok.inj (hreal.symm.trans hq)
            rw [hstate] at hopened
            exact nomatch hopened

/-! # What is written -/

/-- Messages with a property were written behind those on the wire, and a
connection that was closed is closed. -/
structure Continues (P : Message → Prop) (s s' : Documents) : Prop where
  sent : s.connection.Sends P s'.connection
  closed : s'.connection.closed = false → s.connection.closed = false

section Continuing

variable {P : Message → Prop} {t : Documents}

theorem Continues.refl (s : Documents) : Continues P s s :=
  ⟨.refl _, id⟩

theorem Continues.trans {u : Documents} (hst : Continues P s t)
    (htu : Continues P t u) :
    Continues P s u :=
  ⟨hst.sent.trans htu.sent, hst.closed ∘ htu.closed⟩

theorem Continues.of_connection {s' t' : Documents} (h : Continues P s t)
    (hs : s'.connection = s.connection) (ht : t'.connection = t.connection) :
    Continues P s' t' := by
  constructor
  · rw [hs, ht]
    exact h.sent
  · rw [hs, ht]
    exact h.closed

variable (hP : ∀ method params, P (.notification method params))
include hP

theorem continues_notify (s : Documents) (method : String) (params : Json) :
    Continues P s (s.notify method params).2 := by
  rcases notify_outcome s method params with
    ⟨-, heq⟩ | ⟨f, c, heq, hclosed, hwire⟩
  · rw [heq]
    exact ⟨.snoc (hP method params) rfl, id⟩
  · rw [heq]
    refine ⟨.of_wire hwire, ?_⟩
    intro hopen
    exact absurd hclosed (Bool.eq_false_iff.mp hopen)

theorem continues_sendOpen (disk : Disk) (path : FilePath) (s : Documents) :
    Continues P s (sendOpen disk path s).2 := by
  unfold sendOpen
  split
  · exact .refl s
  · next d hload =>
      have h := continues_notify hP s openMethod (openParams d)
      split
      · next heq =>
          rw [heq] at h
          exact h.of_connection rfl rfl
      · next heq =>
          rw [heq] at h
          exact h

theorem continues_openFile (disk : Disk) (path : FilePath) (s : Documents) :
    Continues P s (openFile disk path s).2 := by
  unfold openFile
  split
  · exact .refl s
  · split
    · exact .refl s
    · exact .refl s
    · exact continues_sendOpen hP disk _ s

theorem continues_reopenFile (disk : Disk) (path : FilePath) (s : Documents) :
    Continues P s (reopenFile disk path s).2 := by
  unfold reopenFile
  split
  · exact .refl s
  · split
    · exact .refl s
    · exact continues_sendOpen hP disk _ s

theorem continues_changeFile (disk : Disk) (path : FilePath) (content : String)
    (s : Documents) :
    Continues P s (changeFile disk path content s).2 := by
  unfold changeFile
  split
  · exact .refl s
  · split
    · next d hd =>
        have h :=
          continues_notify hP s changeMethod
            (changeParams d.uri (d.version + 1) content)
        dsimp only
        split
        · next heq =>
            rw [heq] at h
            exact h.of_connection rfl rfl
        · next heq =>
            rw [heq] at h
            exact h
    · exact .refl s
    · exact .refl s

theorem continues_closeFile (disk : Disk) (path : FilePath) (s : Documents) :
    Continues P s (closeFile disk path s).2 := by
  unfold closeFile
  split
  · exact .refl s
  · next real hreal =>
      split
      · next d hd =>
          have hnotify := continues_notify hP (s.setState real .closed)
            closeMethod (closeParams d.uri)
          exact hnotify.of_connection rfl rfl
      · exact .refl s

theorem continues_sendCloses (s : Documents) (uris : List Url) :
    Continues P s (sendCloses s uris) := by
  induction uris generalizing s with
  | nil =>
      exact .refl s
  | cons uri rest ih =>
      exact (continues_notify hP s closeMethod (closeParams uri)).trans (ih _)

theorem continues_closeAll (s : Documents) : Continues P s s.closeAll.2 := by
  have hcloses :=
    continues_sendCloses hP { s with table := s.table.closeEach }
      (s.table.opened.map OpenDocument.uri)
  exact hcloses.of_connection rfl rfl

end Continuing

end Documents
end CodeIntel
