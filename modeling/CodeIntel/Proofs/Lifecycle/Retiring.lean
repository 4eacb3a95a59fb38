import CodeIntel.Client.Teardown
import CodeIntel.Proofs.Client.Opening
import CodeIntel.Proofs.Documents.Announced

/-!
# Closing documents before the shutdown

A teardown closes all documents, and then asks the server to shut down, while
others go on to use the client. It has the documents for itself until the server
was told of the last of them. Whoever else wants to open, change or close a
document waits until then, and no longer: nobody looks at how far the teardown
has come. So the server may be asked to shut down with a document open, but only
with one that was opened after all of them had been closed.

The invariant is `Orderly`: while the documents are taken, those that are still
announced are still to be closed.
-/

namespace CodeIntel

open Documents (closeMethod closeParams Bystands)
open Mock.Server (listener)

namespace DocumentStep

/-- Whether a step has to wait while somebody else has the documents. -/
def isOnDocuments : DocumentStep → Bool
  | .openFile .. | .reopenFile .. | .changeFile .. | .closeFile
      .. | .closeAll => true
  | .call .. | .dispatch .. | .breakPipe | .close => false

def mayOpen : DocumentStep → Bool
  | .openFile .. | .reopenFile .. => true
  | _ => false

end DocumentStep

/-! # Teardowns among others -/

/-- How far a teardown has come with the documents. -/
inductive RetirementStage where
  | unbegun
  /-- It has taken the documents, and is still to tell the server that these are
  closed. -/
  | closing (left : List Url)
  | finished
deriving DecidableEq

structure Retirement where
  documents : Documents := {}
  stage : RetirementStage := .unbegun

inductive RetirementEvent where
  /-- Somebody else uses the client. -/
  | other (st : DocumentStep)
  | take
  | closeNext
  | free

namespace Retirement

def isTaken (s : Retirement) : Bool :=
  match s.stage with
  | .closing _ => true
  | _ => false

def step (s : Retirement) : RetirementEvent → Retirement
  | .other st =>
    if s.isTaken && st.isOnDocuments then s
    else { s with documents := s.documents.step st }
  | .take =>
    match s.stage with
    | .unbegun =>
      { documents := { s.documents with table := s.documents.table.closeEach }
        stage := .closing (s.documents.table.opened.map OpenDocument.uri) }
    | _ => s
  | .closeNext =>
    match s.stage with
    | .closing (uri :: left) =>
      { documents := (s.documents.notify closeMethod
        (closeParams uri)).2, stage := .closing left }
    | _ => s
  | .free =>
    match s.stage with
    | .closing [] => { s with stage := .finished }
    | _ => s

def run (s : Retirement) (events : List RetirementEvent) : Retirement :=
  events.foldl step s

theorem run_append (s : Retirement) (events more : List RetirementEvent) :
    s.run (events ++ more) = (s.run events).run more :=
  List.foldl_append

end Retirement

/-! # Steps of others -/

namespace Documents

variable {s : Documents}

def HasNone (s : Documents) : Prop :=
  ∀ path d, s.table.find? path ≠ some (.opened d)

theorem hasNone_closeEach (s : Documents) :
    HasNone { s with table := s.table.closeEach } := by
  intro path d hd
  rw [find?_closeEach, Option.map_eq_some_iff] at hd
  obtain ⟨_, -, hd⟩ := hd
  exact nomatch hd

theorem step_of_not_isOnDocuments {st : DocumentStep}
    (h : st.isOnDocuments = false) (s : Documents) :
    ∃ change, s.step st = s.onConnection change ∧
    Bystands s.connection (change s.connection) := by
  cases st with
  | openFile disk path | reopenFile disk path
  | changeFile disk path content | closeFile disk path
  | closeAll =>
      exact nomatch h
  | call method params =>
      exact ⟨fun c => (c.startCall method params).2, rfl,
        bystands_startCall s.connection method params⟩
  | dispatch frame =>
      exact ⟨(·.dispatch frame), rfl, bystands_dispatch s.connection frame⟩
  | breakPipe =>
      exact ⟨Connection.breakPipe, rfl, .of_wire rfl rfl⟩
  | close =>
      exact ⟨Connection.close, rfl, bystands_close s.connection⟩

theorem continues_step (s : Documents) (st : DocumentStep) :
    Continues (fun _ => True) s (s.step st) := by
  have hall (method : String) (params : Json) : True := trivial
  cases st with
  | openFile disk path =>
      exact continues_openFile hall disk path s
  | reopenFile disk path =>
      exact continues_reopenFile hall disk path s
  | changeFile disk path content =>
      exact continues_changeFile hall disk path content s
  | closeFile disk path =>
      exact continues_closeFile hall disk path s
  | closeAll =>
      exact continues_closeAll hall s
  | call method params =>
      exact ⟨.startCall (fun _ => trivial) _,
        (bystands_startCall _ method params).closed⟩
  | dispatch frame =>
      exact ⟨.dispatch (fun _ _ => trivial) (fun _ _ => trivial) frame _,
        (bystands_dispatch _ frame).closed⟩
  | breakPipe =>
      exact ⟨.of_wire rfl, id⟩
  | close =>
      exact ⟨.of_wire (Connection.close_wire _), (bystands_close _).closed⟩

theorem HasNone.step (h : s.HasNone) {st : DocumentStep}
    (hopen : st.mayOpen = false) :
    (s.step st).HasNone := by
  cases st with
  | openFile disk path | reopenFile disk path =>
      exact nomatch hopen
  | changeFile disk path content =>
      have hsame : (changeFile disk path content s).2.table = s.table := by
        rcases changeFile_cases disk path content s with
          ⟨r, d, -, hd, -⟩ | ⟨f, c, heq, -⟩
        · exact absurd hd (h r d)
        · rw [heq]
      intro p d
      rw [Documents.step, hsame]
      exact h p d
  | closeFile disk path =>
      have hsame : (closeFile disk path s).2 = s := by
        unfold closeFile
        split
        · rfl
        · next real hreal =>
            split
            · next d hd =>
                exact absurd hd (h real d)
            · rfl
      intro p d
      rw [Documents.step, hsame]
      exact h p d
  | closeAll =>
      intro p d hd
      obtain ⟨htable, -⟩ :=
        sendCloses_spec listener (s.table.opened.map OpenDocument.uri)
        { s with table := s.table.closeEach }
      rw [Documents.step, closeAll, htable] at hd
      exact hasNone_closeEach s p d hd
  | call method params | dispatch frame | breakPipe | close =>
      exact h

end Documents

/-! # The invariant -/

namespace Retirement

inductive Orderly (s : Retirement) : Prop where
  | free (hfree : s.isTaken = false)
      (hmirrored : s.documents.IsMirrored listener)
  | taken (left : List Url) (hstage : s.stage = .closing left)
      (hnone : s.documents.HasNone)
    (hleft : s.documents.connection.closed = false → ∀ uri,
      IsAnnounced uri s.documents.connection.wire → uri ∈ left.map Url.text)

variable {s : Retirement}

theorem isTaken_of_closing {left : List Url} (h : s.stage = .closing left) :
    s.isTaken = true := by
  rw [isTaken, h]

theorem orderly_start : Orderly {} :=
  .free rfl (Documents.isMirrored_empty listener)

theorem Orderly.isMirrored (h : s.Orderly) (hfree : s.isTaken = false) :
    s.documents.IsMirrored listener := by
  cases h with
  | free _ hmirrored =>
      exact hmirrored
  | taken left hstage _ _ =>
      rw [isTaken_of_closing hstage] at hfree
      exact nomatch hfree

theorem Orderly.of_closing (h : s.Orderly) {left : List Url}
    (hstage : s.stage = .closing left) :
    s.documents.HasNone ∧ (s.documents.connection.closed = false → ∀ uri,
      IsAnnounced uri s.documents.connection.wire →
      uri ∈ left.map Url.text) := by
  cases h with
  | free hfree _ =>
      rw [isTaken_of_closing hstage] at hfree
      exact nomatch hfree
  | taken left' hstage' hnone hleft =>
      obtain rfl : left = left' := by
        simpa [hstage] using hstage'
      exact ⟨hnone, hleft⟩

theorem Orderly.other (h : s.Orderly) (st : DocumentStep) :
    (s.step (.other st)).Orderly := by
  rw [step]
  cases h with
  | free hfree hmirrored =>
      rw [hfree, Bool.false_and, if_neg Bool.false_ne_true]
      exact .free hfree (hmirrored.step st)
  | taken left hstage hnone hleft =>
      cases hst : st.isOnDocuments with
      | true =>
          rw [isTaken_of_closing hstage]
          exact .taken left hstage hnone hleft
      | false =>
          obtain ⟨change, hchange, hbystands⟩ :=
            s.documents.step_of_not_isOnDocuments hst
          rw [Bool.and_false, if_neg Bool.false_ne_true, hchange]
          refine .taken left hstage hnone ?_
          intro hlive uri hannounced
          exact hleft (hbystands.closed hlive) uri
            (hbystands.isAnnounced_iff.mp hannounced)

/-- When the documents are taken, what is announced is open for us and will be
closed. -/
theorem Orderly.take (h : s.Orderly) : (s.step .take).Orderly := by
  rw [step]
  split
  · next hstage =>
      have hmirrored := h.isMirrored (by rw [isTaken, hstage])
      refine .taken _ rfl (Documents.hasNone_closeEach s.documents) ?_
      intro hlive uri hannounced
      obtain ⟨path, d, hd, rfl⟩ :=
        hmirrored.exists_of_isAnnounced hlive hannounced
      exact List.mem_map_of_mem
        (List.mem_map_of_mem (Documents.mem_opened_of_find? hd))
  · exact h

theorem Orderly.closeNext (h : s.Orderly) : (s.step .closeNext).Orderly := by
  rw [step]
  split
  · next uri left hstage =>
      obtain ⟨hnone, hleft⟩ := h.of_closing hstage
      rcases Documents.notify_outcome s.documents closeMethod
          (closeParams uri) with
        ⟨⟨hlive, -⟩, heq⟩ | ⟨f, c, heq, hclosed, -⟩
      · rw [heq]
        refine .taken left rfl hnone ?_
        intro _ other hannounced
        rcases isAnnounced_snoc.mp hannounced with hopens | ⟨hbefore, hkept⟩
        · exact nomatch hopens
        · rcases List.mem_cons.mp (hleft hlive other hbefore) with rfl | hmem
          · exact absurd (Message.closes?_closeParams uri) hkept
          · exact hmem
      · rw [heq]
        refine .taken left rfl hnone ?_
        intro hlive
        exact absurd hclosed (Bool.eq_false_iff.mp hlive)
  · exact h

theorem Orderly.of_closed (h : s.Orderly) (hstage : s.stage = .closing []) :
    s.documents.HasNone ∧ (s.documents.connection.closed = false →
      ∀ uri, ¬ IsAnnounced uri s.documents.connection.wire) := by
  obtain ⟨hnone, hleft⟩ := h.of_closing hstage
  exact ⟨hnone, fun hlive uri hannounced =>
    List.not_mem_nil (hleft hlive uri hannounced)⟩

theorem Orderly.release (h : s.Orderly) : (s.step .free).Orderly := by
  rw [step]
  split
  · next hstage =>
      obtain ⟨hnone, hwire⟩ := h.of_closed hstage
      exact .free rfl (Documents.isMirrored_of_none hnone hwire)
  · exact h

theorem Orderly.step (h : s.Orderly) (event : RetirementEvent) :
    (s.step event).Orderly := by
  cases event with
  | other st =>
      exact h.other st
  | take =>
      exact h.take
  | closeNext =>
      exact h.closeNext
  | free =>
      exact h.release

theorem Orderly.run (h : s.Orderly) (events : List RetirementEvent) :
    (s.run events).Orderly := by
  induction events generalizing s with
  | nil =>
      exact h
  | cons event rest ih =>
      exact ih (h.step event)

/-! # What is written meanwhile -/

theorem continues_step (s : Retirement) (event : RetirementEvent) :
    s.documents.Continues (fun _ => True) (s.step event).documents := by
  cases event with
  | other st =>
      rw [step]
      split
      · exact .refl _
      · exact s.documents.continues_step st
  | take =>
      rw [step]
      split
      · exact (Documents.Continues.refl s.documents).of_connection rfl rfl
      · exact .refl _
  | closeNext =>
      rw [step]
      split
      · exact Documents.continues_notify (fun _ _ => trivial) s.documents _ _
      · exact .refl _
  | free =>
      rw [step]
      split <;> exact .refl _

theorem continues_run (s : Retirement) (events : List RetirementEvent) :
    s.documents.Continues (fun _ => True) (s.run events).documents := by
  induction events generalizing s with
  | nil =>
      exact .refl _
  | cons event rest ih =>
      exact (continues_step s event).trans (ih (s.step event))

theorem step_of_finished (h : s.stage = .finished) (event : RetirementEvent) :
    s.step event = match event with
      | .other st => { s with documents := s.documents.step st }
      | _ => s := by
  cases event with
  | other st =>
      rw [step, isTaken, h]
      rfl
  | take | closeNext | free =>
      rw [step, h]

theorem hasNone_run (hfinished : s.stage = .finished)
    (hnone : s.documents.HasNone) {events : List RetirementEvent}
    (hothers : ∀ st, .other st ∈ events → st.mayOpen = false) :
    (s.run events).stage = .finished ∧ (s.run events).documents.HasNone := by
  induction events generalizing s with
  | nil =>
      exact ⟨hfinished, hnone⟩
  | cons event rest ih =>
      have hrest (st : DocumentStep) (hst : .other st ∈ rest) :
          st.mayOpen = false :=
        hothers st (List.mem_cons_of_mem _ hst)
      show ((s.step event).run rest).stage = .finished ∧
        ((s.step event).run rest).documents.HasNone
      rw [step_of_finished hfinished]
      cases event with
      | other st =>
          have hopen : st.mayOpen = false := hothers st List.mem_cons_self
          exact ih (s := { s with documents := s.documents.step st }) hfinished
            (hnone.step hopen) hrest
      | take | closeNext | free =>
          exact ih hfinished hnone hrest

/-! # The shutdown -/

/-- What is announced when the server is asked to shut down was announced since
the server was told of the last document. -/
theorem Orderly.of_shutdown (h : s.Orderly) (hclosed : s.stage = .closing [])
    {later : List RetirementEvent} {id : Nat} {connection : Connection}
    (hasked : (s.run (.free :: later)).documents.connection.startCall
      "shutdown" .null = (.ok id, connection)) :
    (∀ uri, ¬ IsAnnounced uri s.documents.connection.wire) ∧
    (∃ sent, connection.wire = s.documents.connection.wire ++ sent ∧
      ∀ uri, IsAnnounced uri connection.wire → IsAnnounced uri sent) ∧
    ((∀ st, .other st ∈ later → st.mayOpen = false) →
      ∀ uri, ¬ IsAnnounced uri connection.wire) := by
  generalize ht : s.run (.free :: later) = t at hasked
  have hend : t.Orderly := ht ▸ h.run (.free :: later)
  rcases h.of_closed hclosed with ⟨hnone, hwire⟩
  -- a connection that is written to in the end was alive all the time
  have hlive := Connection.not_closed_of_startCall hasked
  have hcontinues : s.documents.Continues (fun _ => True) t.documents :=
    ht ▸ continues_run s _
  have hnothing := hwire (hcontinues.closed hlive)
  have hsends : t.documents.connection.Sends (fun _ => True)
      (t.documents.connection.startCall "shutdown" .null).2 :=
      .startCall (fun _ => trivial) _
  have hbystands :=
    Documents.bystands_startCall t.documents.connection "shutdown" .null
  rw [hasked] at hsends hbystands
  refine ⟨hnothing, ?_, ?_⟩
  · rcases hcontinues.sent.trans hsends with ⟨sent, heq, -⟩
    refine ⟨sent, heq, ?_⟩
    intro uri hannounced
    rw [heq, isAnnounced_append] at hannounced
    exact hannounced.resolve_right fun h => hnothing uri h.1
  · intro hothers uri hannounced
    have hfreed : s.step .free = { s with stage := .finished } := by
      rw [Retirement.step, hclosed]
    have hlater : t.stage = .finished ∧ t.documents.HasNone := by
      rw [← ht]
      show ((s.step .free).run later).stage = .finished ∧
        ((s.step .free).run later).documents.HasNone
      rw [hfreed]
      exact hasNone_run (s := { s with stage := .finished }) rfl hnone hothers
    have hmirrored := hend.isMirrored (by rw [isTaken, hlater.1])
    rcases hmirrored.exists_of_isAnnounced hlive
        (hbystands.isAnnounced_iff.mp hannounced) with
      ⟨path, d, hd, -⟩
    exact hlater.2 path d hd

/-- Whatever others do before, meanwhile and after: if the connection is open
when the server was told of the last document, none is announced then. If the
server is asked to shut down, there was none then, those that are announced now
were announced since, and there are none if nobody has opened one since. -/
theorem announced_since_closed (earlier : List RetirementEvent)
    (hclosed : (run {} earlier).stage = .closing []) :
    ((run {} earlier).documents.connection.closed = false →
      ∀ uri, ¬ IsAnnounced uri (run {} earlier).documents.connection.wire) ∧
    ∀ later id connection,
      (run {} (earlier ++ .free :: later)).documents.connection.startCall
        "shutdown" .null = (.ok id, connection) →
      (∀ uri, ¬ IsAnnounced uri (run {} earlier).documents.connection.wire) ∧
      (∃ sent, connection.wire =
        (run {} earlier).documents.connection.wire ++ sent ∧
        ∀ uri, IsAnnounced uri connection.wire → IsAnnounced uri sent) ∧
      ((∀ st, .other st ∈ later → st.mayOpen = false) →
        ∀ uri, ¬ IsAnnounced uri connection.wire) := by
  have horderly : (run {} earlier).Orderly := orderly_start.run earlier
  constructor
  · exact (horderly.of_closed hclosed).2
  · intro later id connection hasked
    rw [run_append] at hasked
    exact horderly.of_shutdown hclosed hasked

def smallOpened : Documents where
  connection :=
    Connection.told {} Documents.openMethod
      (Documents.openParams Client.smallDocument)
  table := [(Client.smallFile, .opened Client.smallDocument)]

theorem step_smallOpened :
    Documents.step {} (.openFile Client.twoLines.disk Client.smallFile) =
      smallOpened :=
  congrArg Prod.snd (Documents.openFile_of_load Client.twoLines_realPath
    rfl Client.load_twoLines ⟨rfl, rfl⟩)

/-- The small file is opened, and its document is closed before the shutdown. -/
theorem small_document_is_closed : ∃ connection,
    (run {} [.other (.openFile Client.twoLines.disk Client.smallFile), .take,
      .closeNext, .free] ).documents.connection.startCall "shutdown" .null =
        (.ok 1, connection) ∧
    ∀ uri, ¬ IsAnnounced uri connection.wire := by
  have hrun (events : List RetirementEvent) :
      run {} (.other (.openFile Client.twoLines.disk Client.smallFile) ::
        events) = run ⟨smallOpened, .unbegun⟩ events := by
    show run ⟨Documents.step {}
      (.openFile Client.twoLines.disk Client.smallFile), .unbegun⟩ events = _
    rw [step_smallOpened]
  have hclosed :
      (run {} [.other (.openFile Client.twoLines.disk Client.smallFile), .take,
      .closeNext]).stage = .closing [] := by
    rw [hrun]
    rfl
  obtain ⟨connection, hasked⟩ : ∃ connection,
      (run {} [.other (.openFile Client.twoLines.disk Client.smallFile), .take,
        .closeNext, .free] ).documents.connection.startCall "shutdown" .null =
          (.ok 1, connection) := by
    rw [hrun]
    exact ⟨_, rfl⟩
  have hnone :=
    ((announced_since_closed _ hclosed).2 [] 1 connection hasked).2.2
  exact ⟨connection, hasked, hnone fun _ h => nomatch h⟩

/-- A document that is opened late is open with the server when that is asked to
shut down. -/
theorem document_open_at_shutdown : ∃ connection,
    (run {} [.take, .free,
      .other (.openFile Client.twoLines.disk Client.smallFile)]
      ).documents.connection.startCall "shutdown" .null = (.ok 1, connection) ∧
    IsAnnounced "file:///a" connection.wire := by
  have hrun :
      run {} [.take, .free,
        .other (.openFile Client.twoLines.disk Client.smallFile)] =
      ⟨smallOpened, .finished⟩ := by
    show Retirement.mk (Documents.step {}
      (.openFile Client.twoLines.disk Client.smallFile)) .finished = _
    rw [step_smallOpened]
  rw [hrun]
  refine ⟨_, rfl, ?_⟩
  refine ⟨[], .notification Documents.openMethod
    (Documents.openParams Client.smallDocument),
    [.request 1 "shutdown" .null], rfl, ?_, ?_⟩
  · exact Message.opens?_openParams Client.smallDocument
  · intro m hm
    rw [List.mem_singleton.mp hm]
    exact nofun

end Retirement

/-! # A single teardown -/

namespace Client

variable {σ : Type}

theorem run_closeNext (s : Documents) (uris : List Url) :
    Retirement.run ⟨s, .closing uris⟩ (List.replicate uris.length .closeNext) =
      ⟨s.sendCloses uris, .closing []⟩ := by
  induction uris generalizing s with
  | nil =>
      rfl
  | cons uri rest ih =>
      exact ih (s.notify closeMethod (closeParams uri)).2

/-- Closing all documents at once is what a teardown does to which nobody comes
in between. -/
theorem closeDocuments_is_run (c : Client σ) :
    Retirement.run ⟨c.documents, .unbegun⟩ (.take ::
      (List.replicate c.documents.openCount .closeNext ++ [.free])) =
      ⟨c.closeDocuments.documents, .finished⟩ := by
  have hcloses :=
    run_closeNext { c.documents with table := c.documents.table.closeEach }
    (c.documents.table.opened.map OpenDocument.uri)
  rw [List.length_map] at hcloses
  show Retirement.run
    ⟨{ c.documents with table := c.documents.table.closeEach },
    .closing (c.documents.table.opened.map OpenDocument.uri)⟩
      (List.replicate c.documents.openCount .closeNext ++ [.free]) = _
  rw [Retirement.run_append, Documents.openCount, hcloses]
  rfl

end Client
end CodeIntel
