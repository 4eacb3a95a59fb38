import CodeIntel.Proofs.Client.Opening
import CodeIntel.Proofs.Documents.Announced
import CodeIntel.Proofs.Documents.Outcomes
import Mathlib.Data.List.Nodup

/-!
# Sessions of documents

What the server is told of one document is a series of sessions. A session
begins with version 1, goes on with one version after the other, and ends when
the document is closed; the last one may be still going on, or have been cut off
with the connection. Only a document that is reopened has another session.

What a step does to the table and to the wire is said once, by `Turn`. The
invariant is `InSessions`: it keeps what was told of each document next to what
the table says of it.
-/

namespace CodeIntel

open Documents (openMethod changeMethod closeMethod openParams changeParams
  closeParams)

/-! # Notes -/

inductive DocumentNote where
  | opened (version : Int)
  | changed (version : Int)
  | closed
deriving DecidableEq, Repr

namespace Message

def noteOf? (method : String) (params : Json) : Option DocumentNote :=
  if method = openMethod then some (.opened (Mock.Server.versionOf params))
  else if method = changeMethod then
    some (.changed (Mock.Server.versionOf params))
  else if method = closeMethod then some .closed
  else none

def note? (text : String) : Message → Option DocumentNote
  | .notification method params =>
    if documentOf params = text then noteOf? method params else none
  | _ => none

theorem note?_openParams (text : String) (d : OpenDocument) :
    (notification openMethod (openParams d)).note? text =
      if d.uri.text = text then
        some (.opened (OpenDocument.wireVersion d.version)) else none := by
  rw [note?, documentOf, (Mock.Server.textAt_openParams d).1, noteOf?,
    if_pos rfl, Mock.Server.versionOf_openParams]

theorem note?_changeParams (text : String) (uri : Url) (version : Nat)
    (content : String) :
    (notification changeMethod (changeParams uri version content)).note? text =
      if uri.text = text then some (.changed (OpenDocument.wireVersion version))
      else none := by
  have hne : changeMethod ≠ openMethod := by decide
  rw [note?, documentOf,
    (Mock.Server.textAt_changeParams uri version content).1, noteOf?,
    if_neg hne, if_pos rfl, Mock.Server.versionOf_changeParams]

theorem note?_closeParams (text : String) (uri : Url) :
    (notification closeMethod (closeParams uri)).note? text =
      if uri.text = text then some .closed else none := by
  have hopen : closeMethod ≠ openMethod := by decide
  have hchange : closeMethod ≠ changeMethod := by decide
  rw [note?, documentOf, Mock.Server.textAt_closeParams, noteOf?, if_neg hopen,
    if_neg hchange, if_pos rfl]

end Message

def notes (text : String) (wire : List Message) : List DocumentNote :=
  wire.filterMap (Message.note? text)

theorem notes_append (text : String) (wire sent : List Message) :
    notes text (wire ++ sent) = notes text wire ++ notes text sent :=
  List.filterMap_append

theorem notes_singleton (text : String) {m : Message}
    {found : Option DocumentNote} (h : m.note? text = found) :
    notes text [m] = found.toList := by
  rw [notes, List.filterMap_cons, h]
  cases found <;> rfl

theorem wireVersion_of_lt {version : Nat} (h : version < Nat.pow 2 31) :
    OpenDocument.wireVersion version = version := by
  have hpow : Nat.pow 2 31 = 2147483648 := rfl
  rw [hpow] at h
  unfold OpenDocument.wireVersion
  exact Int.bmod_eq_of_le (by omega) (by omega)

theorem notes_open (text : String) {d : OpenDocument}
    (h : d.version < Nat.pow 2 31) :
    notes text [.notification openMethod (openParams d)] =
      if d.uri.text = text then [.opened d.version] else [] := by
  rw [notes_singleton text (Message.note?_openParams text d),
    wireVersion_of_lt h]
  split <;> rfl

theorem notes_change (text : String) (uri : Url) {version : Nat}
    (content : String) (h : version < Nat.pow 2 31) :
    notes text [.notification changeMethod (changeParams uri version content)] =
      if uri.text = text then [.changed version] else [] := by
  rw [notes_singleton text
    (Message.note?_changeParams text uri version content), wireVersion_of_lt h]
  split <;> rfl

theorem notes_close (text : String) (uri : Url) :
    notes text [.notification closeMethod (closeParams uri)] =
      if uri.text = text then [.closed] else [] := by
  rw [notes_singleton text (Message.note?_closeParams text uri)]
  split <;> rfl

theorem notes_eq_nil {text : String} {sent : List Message}
    (h : ∀ m ∈ sent, m.note? text = none) : notes text sent = [] :=
  List.filterMap_eq_nil_iff.mpr h

/-! # Sessions -/

/-- A session that goes on, in which the document was changed some times. -/
def sessionBegun (changes : Nat) : List DocumentNote :=
  .opened 1 :: (List.range' 2 changes).map fun version : Nat => .changed version

/-- A document is opened, changed some times and closed. -/
def session (changes : Nat) : List DocumentNote :=
  sessionBegun changes ++ [.closed]

theorem sessionBegun_succ (changes : Nat) :
    sessionBegun (changes + 1) = sessionBegun changes ++
      [.changed (changes + 2 : Nat)] := by
  rw [sessionBegun, List.range'_concat, List.map_append, sessionBegun]
  simp [Nat.add_comm]

theorem sessions_snoc (counts : List Nat) (changes : Nat) :
    (counts ++ [changes]).flatMap session =
      counts.flatMap session ++ sessionBegun changes ++ [.closed] := by
  simp [session]

/-- What may have been told of a document, by what the table says of it. Only if
the connection is gone may a document be closed for us of which the server was
not told so. -/
inductive Recounted (gone : Bool) :
    Option DocumentState → List DocumentNote → Prop
  | unopened : Recounted gone none []
  | opened (counts : List Nat) (changes : Nat) (d : OpenDocument)
      (hversion : d.version = changes + 1) :
      Recounted gone (some (.opened d))
        (counts.flatMap session ++ sessionBegun changes)
  | closed (counts : List Nat) :
      Recounted gone (some .closed) (counts.flatMap session)
  | lost (counts : List Nat) (changes : Nat) (hgone : gone = true) :
      Recounted gone (some .closed)
        (counts.flatMap session ++ sessionBegun changes)

namespace Recounted

variable {gone gone' : Bool} {state : Option DocumentState}
  {told : List DocumentNote} {d : OpenDocument}

theorem isPrefix (h : Recounted gone state told) :
    ∃ counts, told <+: List.flatMap session counts := by
  have hbegun (counts : List Nat) (changes : Nat) : ∃ counts' : List Nat,
      counts.flatMap session ++
        sessionBegun changes <+: counts'.flatMap session := by
    refine ⟨counts ++ [changes], ?_⟩
    rw [sessions_snoc]
    exact List.prefix_append _ _
  cases h with
  | unopened =>
      exact ⟨[], List.nil_prefix⟩
  | opened counts changes d hversion =>
      exact hbegun counts changes
  | closed counts =>
      exact ⟨counts, List.prefix_rfl⟩
  | lost counts changes hgone =>
      exact hbegun counts changes

theorem mono (h : Recounted gone state told)
    (hgone : gone' = false → gone = false) :
    Recounted gone' state told := by
  cases h with
  | unopened =>
      exact .unopened
  | opened counts changes d hversion =>
      exact .opened counts changes d hversion
  | closed counts =>
      exact .closed counts
  | lost counts changes hlost =>
      refine .lost counts changes ?_
      cases gone' with
      | true =>
          rfl
      | false =>
          exact absurd (hgone rfl) (by simp [hlost])

theorem eq_nil (h : Recounted gone none told) : told = [] := by
  cases h
  rfl

theorem reopen (h : Recounted false state told)
    (hclosed : ∀ e, state ≠ some (.opened e)) (hversion : d.version = 1) :
    Recounted gone (some (.opened d)) (told ++ [.opened 1]) := by
  cases h with
  | unopened =>
      exact .opened [] 0 d hversion
  | opened counts changes e he =>
      exact absurd rfl (hclosed e)
  | closed counts =>
      exact .opened counts 0 d hversion
  | lost counts changes hgone =>
      exact nomatch hgone

theorem change (h : Recounted gone (some (.opened d)) told) {e : OpenDocument}
    (hversion : e.version = d.version + 1) :
    Recounted gone (some (.opened e)) (told ++ [.changed e.version]) := by
  cases h with
  | opened counts changes d hd =>
      have he : e.version = changes + 2 := by
        omega
      rw [List.append_assoc, he, ← sessionBegun_succ]
      exact .opened counts (changes + 1) e he

theorem close (h : Recounted gone (some (.opened d)) told) :
    Recounted gone (some .closed) (told ++ [.closed]) := by
  cases h with
  | opened counts changes d hd =>
      rw [← sessions_snoc]
      exact .closed (counts ++ [changes])

theorem lose (h : Recounted gone (some (.opened d)) told) :
    Recounted true (some .closed) told := by
  cases h with
  | opened counts changes d hd =>
      exact .lost counts changes rfl

end Recounted

/-! # What a step does -/

namespace DocumentTable

theorem mem_of_find? {path : FilePath} {state : DocumentState}
    {t : DocumentTable} (h : t.find? path = some state) :
    (path, state) ∈ t := by
  induction t with
  | nil =>
      exact nomatch h
  | cons e rest ih =>
      obtain ⟨p, s⟩ := e
      rw [find?] at h
      split at h
      · next hp =>
          rw [hp, Option.some.inj h]
          exact List.mem_cons_self
      · exact List.mem_cons_of_mem _ (ih h)

theorem mem_set {path : FilePath} {state : DocumentState} {t : DocumentTable}
    {e : FilePath × DocumentState} (h : e ∈ t.set path state) :
    e = (path, state) ∨ e ∈ t := by
  induction t with
  | nil =>
      exact .inl (List.mem_singleton.mp h)
  | cons first rest ih =>
      obtain ⟨p, s⟩ := first
      rw [set] at h
      split at h
      · next hp =>
          rcases List.mem_cons.mp h with rfl | h
          · exact .inl (by rw [hp])
          · exact .inr (List.mem_cons_of_mem _ h)
      · rcases List.mem_cons.mp h with rfl | h
        · exact .inr List.mem_cons_self
        · exact (ih h).imp_right (List.mem_cons_of_mem _)

theorem nodup_set {path : FilePath} {t : DocumentTable}
    (h : (t.map Prod.fst).Nodup) (state : DocumentState) :
    ((t.set path state).map Prod.fst).Nodup := by
  induction t with
  | nil =>
      exact List.nodup_singleton path
  | cons first rest ih =>
      obtain ⟨p, s⟩ := first
      obtain ⟨hnot, hrest⟩ := List.nodup_cons.mp h
      rw [set]
      split
      · exact h
      · next hp =>
          refine List.nodup_cons.mpr ⟨?_, ih hrest⟩
          intro hmem
          obtain ⟨e, he, hpath⟩ := List.mem_map.mp hmem
          rcases mem_set he with rfl | he
          · exact hp hpath.symm
          · exact hnot (List.mem_map.mpr ⟨e, he, hpath⟩)

end DocumentTable

namespace Documents

def IsSilent (m : Message) : Prop :=
  ∀ text, m.note? text = none

def closing (uri : Url) : Message :=
  .notification closeMethod (closeParams uri)

/-- What a step does to the table and to the wire. -/
inductive Turn (s s' : Documents) (st : DocumentStep) : Prop
  | rests (htable : s'.table = s.table)
      (hsent : s.connection.Sends IsSilent s'.connection)
      (hclosed : s'.connection.closed = false → s.connection.closed = false)
  | opens (path : FilePath) (d : OpenDocument) (hreal : path.IsReal)
      (huri : Url.ofPath? path = some d.uri) (hversion : d.version = 1)
      (hbefore : s.table.find? path = none ∨
        s.table.find? path = some .closed ∧
        ∃ disk path, st = .reopenFile disk path)
      (hlive : s.connection.closed = false)
      (hafter : s' = ⟨s.connection.told openMethod (openParams d),
        s.table.set path (.opened d)⟩)
  | changes (path : FilePath) (d e : OpenDocument)
      (hd : s.table.find? path = some (.opened d))
      (huri : e.uri = d.uri) (hversion : e.version = d.version + 1)
      (hafter : s' = ⟨s.connection.told changeMethod
        (changeParams e.uri e.version e.content), s.table.set path (.opened e)⟩)
  | closes (path : FilePath) (d : OpenDocument)
      (hd : s.table.find? path = some (.opened d))
      (hafter : s' = ⟨s.connection.told closeMethod (closeParams d.uri),
        s.table.set path .closed⟩)
  | loses (path : FilePath) (d : OpenDocument) (c : Connection)
      (hd : s.table.find? path = some (.opened d))
      (hwire : c.wire = s.connection.wire)
      (hclosed : c.closed = true) (hafter : s' = ⟨c, s.table.set path .closed⟩)
  | closesAll (told rest : List Url) (c : Connection)
      (huris : s.table.opened.map OpenDocument.uri = told ++ rest)
      (hwire : c.wire = s.connection.wire ++ told.map closing)
      (hrest : rest ≠ [] → c.closed = true)
      (hclosed : c.closed = false → s.connection.closed = false)
      (hafter : s' = ⟨c, s.table.closeEach⟩)

section Turning

variable {s : Documents} {disk : Disk} {path : FilePath}

theorem Turn.of_failed {st : DocumentStep} {c : Connection}
    (hwire : c.wire = s.connection.wire)
    (hclosed : c.closed = false → s.connection.closed = false) :
    Turn s { s with connection := c } st :=
  .rests rfl (.of_wire hwire) hclosed

theorem Turn.of_bystands {st : DocumentStep} (change : Connection → Connection)
    (hsent : s.connection.Sends IsSilent (change s.connection))
    (hbystands : Bystands s.connection (change s.connection)) :
    Turn s (s.onConnection change) st :=
  .rests rfl hsent hbystands.closed

theorem sendOpen_cases (disk : Disk) (path : FilePath) (s : Documents) :
    (∃ d, load disk path = .ok d ∧ s.connection.IsLive ∧ sendOpen disk path s =
      (.ok d.uri, ⟨s.connection.told openMethod (openParams d),
        s.table.set path (.opened d)⟩)) ∨
    (∃ f c, sendOpen disk path s = (.error f, { s with connection := c }) ∧
      c.wire = s.connection.wire ∧
      (c.closed = false → s.connection.closed = false)) := by
  cases hload : load disk path with
  | error f =>
      exact .inr ⟨f, s.connection, by simp only [sendOpen, hload], rfl, id⟩
  | ok d =>
      rcases notify_outcome s openMethod (openParams d) with
        ⟨hlive, heq⟩ | ⟨f, c, heq, hclosed, hwire⟩
      · exact .inl ⟨d, rfl, hlive,
          by simp only [sendOpen, hload, heq, setState]⟩
      · refine .inr ⟨f, c, by simp only [sendOpen, hload, heq], hwire, ?_⟩
        intro hopen
        exact absurd hclosed (Bool.eq_false_iff.mp hopen)

theorem turn_sendOpen {st : DocumentStep} (hreal : path.IsReal)
    (hbefore : s.table.find? path = none ∨
      s.table.find? path = some .closed ∧
      ∃ disk path, st = .reopenFile disk path) :
    Turn s (sendOpen disk path s).2 st := by
  rcases sendOpen_cases disk path s with ⟨d, hload, hlive, heq⟩ |
    ⟨f, c, heq, hwire, hclosed⟩
  · rw [heq]
    exact .opens path d hreal (uri_of_load hload) (version_of_load hload)
      hbefore hlive.1 rfl
  · rw [heq]
    exact .of_failed hwire hclosed

theorem turn_openFile (disk : Disk) (path : FilePath) (s : Documents)
    (st : DocumentStep) :
    Turn s (s.openFile disk path).2 st := by
  unfold openFile
  split
  · exact .of_failed rfl id
  · next real hreal =>
      split
      · exact .of_failed rfl id
      · exact .of_failed rfl id
      · next hnone =>
          exact turn_sendOpen (isReal_of_canonical hreal) (.inl hnone)

theorem turn_reopenFile (disk : Disk) (path : FilePath) (s : Documents) :
    Turn s (s.reopenFile disk path).2 (.reopenFile disk path) := by
  unfold reopenFile
  split
  · exact .of_failed rfl id
  · next real hreal =>
      split
      · exact .of_failed rfl id
      · next hother =>
          refine turn_sendOpen (isReal_of_canonical hreal) ?_
          cases hstate : s.table.find? real with
          | none =>
              exact .inl rfl
          | some state =>
              cases state with
              | opened d =>
                  exact absurd hstate (hother d)
              | closed =>
                  exact .inr ⟨rfl, disk, path, rfl⟩

theorem turn_changeFile (disk : Disk) (path : FilePath) (content : String)
    (s : Documents) (st : DocumentStep) :
    Turn s (s.changeFile disk path content).2 st := by
  rcases changeFile_cases disk path content s with
    ⟨real, d, hreal, hd, hlive, heq⟩ | ⟨f, c, heq, hwire, hclosed, -⟩
  · rw [heq]
    exact .changes real d
      { d with version := d.version + 1, content := content } hd rfl rfl rfl
  · rw [heq]
    exact .of_failed hwire hclosed

theorem turn_closeFile (disk : Disk) (path : FilePath) (s : Documents)
    (st : DocumentStep) :
    Turn s (s.closeFile disk path).2 st := by
  unfold closeFile
  split
  · exact .of_failed rfl id
  · next real hreal =>
      split
      · next d hd =>
          rcases notify_outcome (s.setState real .closed) closeMethod
              (closeParams d.uri) with
            ⟨hlive, heq⟩ | ⟨f, c, heq, hclosed, hwire⟩
          · rw [heq]
            exact .closes real d hd rfl
          · rw [heq]
            exact .loses real d c hd hwire hclosed rfl
      · exact .of_failed rfl id

/-- The server is told of the first documents, and of the others only if the
connection lives. -/
theorem sendCloses_cases (s : Documents) (uris : List Url) :
    ∃ told rest c, uris = told ++ rest ∧
    sendCloses s uris = { s with connection := c } ∧
      c.wire = s.connection.wire ++ told.map closing ∧
      (rest ≠ [] → c.closed = true) ∧
      (c.closed = false → s.connection.closed = false) ∧
      (s.connection.closed = true → told = []) := by
  induction uris generalizing s with
  | nil =>
      exact ⟨[], [], s.connection, rfl, rfl, by simp, fun h => absurd rfl h, id,
        fun _ => rfl⟩
  | cons uri uris ih =>
      have hfold : sendCloses s (uri :: uris) =
          sendCloses (s.notify closeMethod (closeParams uri)).2 uris := rfl
      rcases notify_outcome s closeMethod (closeParams uri) with
        ⟨hlive, heq⟩ | ⟨f, c, heq, hgone, hsame⟩
      · obtain ⟨told, rest, c, huris, hsends, hwire, hrest, hclosed, -⟩ :=
          ih { s with
            connection := s.connection.told closeMethod (closeParams uri) }
        rw [hfold, heq]
        refine ⟨uri :: told, rest, c, by rw [huris, List.cons_append], hsends,
          ?_, hrest, hclosed, ?_⟩
        · rw [hwire, List.map_cons]
          exact List.append_assoc _ _ _
        · intro hdead
          exact absurd hlive.1 (by simp [hdead])
      -- the connection is gone, and stays so
      · obtain ⟨told, rest, c', huris, hsends, hwire, hrest, hclosed, hnone⟩ :=
          ih { s with connection := c }
        obtain rfl := hnone hgone
        have hdead : c'.closed = true := by
          cases hopen : c'.closed with
          | true =>
              rfl
          | false =>
              exact absurd hgone (Bool.eq_false_iff.mp (hclosed hopen))
        rw [hfold, heq]
        refine ⟨[], uri :: uris, c', rfl, hsends, ?_, fun _ => hdead, ?_,
          fun _ => rfl⟩
        · rw [hwire, ← hsame]
        · intro hopen
          exact absurd hdead (Bool.eq_false_iff.mp hopen)

theorem turn_closeAll (s : Documents) (st : DocumentStep) :
    Turn s s.closeAll.2 st := by
  obtain ⟨told, rest, c, huris, hsends, hwire, hrest, hclosed, -⟩ :=
    sendCloses_cases { s with table := s.table.closeEach }
      (s.table.opened.map OpenDocument.uri)
  exact .closesAll told rest c huris hwire hrest hclosed hsends

theorem isSilent_request (id : Nat) (method : String) (params : Json) :
    IsSilent (.request id method params) :=
  fun _ => rfl

theorem turn_step (s : Documents) (st : DocumentStep) :
    Turn s (s.step st) st := by
  cases st with
  | openFile disk path =>
      exact turn_openFile disk path s _
  | reopenFile disk path =>
      exact turn_reopenFile disk path s
  | changeFile disk path content =>
      exact turn_changeFile disk path content s _
  | closeFile disk path =>
      exact turn_closeFile disk path s _
  | closeAll =>
      exact turn_closeAll s _
  | call method params =>
      exact .of_bystands (fun c => (c.startCall method params).2)
        (.startCall (fun id => isSilent_request id method params) _)
        (bystands_startCall _ method params)
  | dispatch frame =>
      exact .of_bystands (·.dispatch frame)
        (.dispatch (fun _ _ _ => rfl) (fun _ _ _ => rfl) frame _)
        (bystands_dispatch _ frame)
  | breakPipe =>
      exact .of_bystands Connection.breakPipe (.of_wire rfl)
        (Bystands.of_wire rfl rfl)
  | close =>
      exact .of_bystands Connection.close (.of_wire (Connection.close_wire _))
        (bystands_close _)

/-- What a step writes. A document is opened only if it was never open, or if it
is reopened. -/
theorem Turn.sent {s' : Documents} {st : DocumentStep} (h : Turn s s' st) :
    ∃ sent, s'.connection.wire = s.connection.wire ++ sent ∧
      ∀ m ∈ sent, ∀ text version, m.note? text = some (.opened version) →
        (∃ path uri, path.IsReal ∧ Url.ofPath? path = some uri ∧
          uri.text = text ∧ s.table.find? path = none) ∨
          ∃ disk path, st = .reopenFile disk path := by
  cases h with
  | rests htable hsent hclosed =>
      obtain ⟨sent, hwire, hsilent⟩ := hsent
      refine ⟨sent, hwire, ?_⟩
      intro m hm text version hnote
      exact nomatch (hsilent m hm text).symm.trans hnote
  | opens path d hreal huri hversion hbefore hlive hafter =>
      refine ⟨[.notification openMethod (openParams d)],
        by rw [hafter]; rfl, ?_⟩
      intro m hm text version hnote
      rw [List.mem_singleton.mp hm, Message.note?_openParams] at hnote
      split at hnote
      · next htext =>
          exact hbefore.imp (fun hnone =>
            ⟨path, d.uri, hreal, huri, htext, hnone⟩) And.right
      · exact nomatch hnote
  | changes path d e hd huri hversion hafter =>
      refine ⟨[.notification changeMethod
        (changeParams e.uri e.version e.content)], by rw [hafter]; rfl, ?_⟩
      intro m hm text version hnote
      rw [List.mem_singleton.mp hm, Message.note?_changeParams] at hnote
      split at hnote <;> exact nomatch hnote
  | closes path d hd hafter =>
      refine ⟨[closing d.uri], by rw [hafter]; rfl, ?_⟩
      intro m hm text version hnote
      rw [List.mem_singleton.mp hm, closing, Message.note?_closeParams] at hnote
      split at hnote <;> exact nomatch hnote
  | loses path d c hd hwire hclosed hafter =>
      exact ⟨[], by rw [hafter, List.append_nil]; exact hwire,
        fun _ hm => nomatch hm⟩
  | closesAll told rest c huris hwire hrest hclosed hafter =>
      refine ⟨told.map closing, by rw [hafter]; exact hwire, ?_⟩
      intro m hm text version hnote
      obtain ⟨uri, -, rfl⟩ := List.mem_map.mp hm
      rw [closing, Message.note?_closeParams] at hnote
      split at hnote <;> exact nomatch hnote

theorem Turn.opened {s' : Documents} {st : DocumentStep} (h : Turn s s' st)
    {d : OpenDocument} (hd : d ∈ s'.table.opened) :
    d ∈ s.table.opened ∨ d.version = 1 ∨
    ∃ e ∈ s.table.opened, d.version = e.version + 1 := by
  obtain ⟨⟨path, state⟩, hmem, hdocument⟩ := List.mem_filterMap.mp hd
  obtain rfl : state = .opened d := by
    cases state with
    | opened e =>
        exact congrArg DocumentState.opened (Option.some.inj hdocument)
    | closed =>
        exact nomatch hdocument
  have hkept (hmem : (path, DocumentState.opened d) ∈ s.table) :
      d ∈ s.table.opened :=
    List.mem_filterMap.mpr ⟨_, hmem, rfl⟩
  cases h with
  | rests htable hsent hclosed =>
      exact .inl (hkept (htable ▸ hmem))
  | opens r e hreal huri hversion hbefore hlive hafter =>
      rw [hafter] at hmem
      rcases DocumentTable.mem_set hmem with heq | hmem
      · rw [DocumentState.opened.inj (Prod.mk.inj heq).2]
        exact .inr (.inl hversion)
      · exact .inl (hkept hmem)
  | changes r e f he huri hversion hafter =>
      rw [hafter] at hmem
      rcases DocumentTable.mem_set hmem with heq | hmem
      · rw [DocumentState.opened.inj (Prod.mk.inj heq).2]
        exact .inr (.inr ⟨e, mem_opened_of_find? he, hversion⟩)
      · exact .inl (hkept hmem)
  | closes r e he hafter | loses r e c he hwire hclosed hafter =>
      rw [hafter] at hmem
      exact .inl (hkept ((DocumentTable.mem_set hmem).resolve_left nofun))
  | closesAll told rest c huris hwire hrest hclosed hafter =>
      rw [hafter] at hmem
      obtain ⟨e, -, heq⟩ := List.mem_map.mp hmem
      exact nomatch (Prod.mk.inj heq).2

end Turning

/-! # What was told of each document -/

theorem eq_of_text {p q : FilePath} {uri other : Url} (hp : p.IsReal)
    (hq : q.IsReal) (huri : Url.ofPath? p = some uri)
    (hother : Url.ofPath? q = some other) (htext : uri.text = other.text) :
    p = q := by
  have heq : uri = other := by
    cases uri
    cases other
    exact congrArg Url.mk htext
  exact Url.ofPath?_injOn_isReal hp hq (by rw [huri, hother, heq])

/-- What holds between two steps. -/
structure InSessions (s : Documents) : Prop where
  nodup : (s.table.map Prod.fst).Nodup
  named : ∀ path d, (path, .opened d) ∈ s.table → path.IsReal ∧
    Url.ofPath? path = some d.uri
  told : ∀ path uri, path.IsReal → Url.ofPath? path = some uri →
    Recounted s.connection.closed (s.table.find? path)
      (notes uri.text s.connection.wire)
  foreign : ∀ text, (∀ path uri, path.IsReal → Url.ofPath? path = some uri →
    uri.text ≠ text) → notes text s.connection.wire = []

namespace InSessions

variable {s s' : Documents} {path : FilePath} {uri : Url} {st : DocumentStep}

theorem empty : InSessions {} where
  nodup := List.nodup_nil
  named _ _ h := nomatch h
  told _ _ _ _ := .unopened
  foreign _ _ := rfl

theorem named_of_find? (h : s.InSessions) {d : OpenDocument}
    (hd : s.table.find? path = some (.opened d)) :
    path.IsReal ∧ Url.ofPath? path = some d.uri :=
  h.named path d (DocumentTable.mem_of_find? hd)

theorem set (h : s.InSessions) (hreal : path.IsReal)
    (huri : Url.ofPath? path = some uri) {state : DocumentState}
    {c : Connection} {sent : List Message}
    (hwire : c.wire = s.connection.wire ++ sent)
    (hothers : ∀ text, text ≠ uri.text → notes text sent = [])
    (hclosed : c.closed = false → s.connection.closed = false)
    (hstate : ∀ d, state = .opened d → d.uri = uri)
    (htold : Recounted c.closed (some state)
      (notes uri.text s.connection.wire ++ notes uri.text sent)) :
    InSessions ⟨c, s.table.set path state⟩ where
  nodup := DocumentTable.nodup_set h.nodup state
  named p d hd := by
    rcases DocumentTable.mem_set hd with heq | hd
    · obtain ⟨rfl, hopened⟩ := Prod.mk.inj heq
      exact ⟨hreal, by rw [huri, hstate d hopened.symm]⟩
    · exact h.named p d hd
  told p v hp hv := by
    rw [hwire, notes_append]
    by_cases hpath : p = path
    · subst hpath
      obtain rfl := Option.some.inj (huri.symm.trans hv)
      rw [DocumentTable.find?_set_self]
      exact htold
    · have htext : v.text ≠ uri.text :=
        fun htext => hpath (eq_of_text hp hreal hv huri htext)
      rw [DocumentTable.find?_set_of_ne hpath, hothers v.text htext,
        List.append_nil]
      exact (h.told p v hp hv).mono hclosed
  foreign text htext := by
    rw [hwire, notes_append, h.foreign text htext, hothers text,
      List.append_nil]
    exact (htext path uri hreal huri).symm

theorem rest (h : s.InSessions) (htable : s'.table = s.table)
    (hsent : s.connection.Sends IsSilent s'.connection)
    (hclosed : s'.connection.closed = false → s.connection.closed = false) :
    s'.InSessions := by
  obtain ⟨sent, hwire, hsilent⟩ := hsent
  have hnotes (text : String) :
      notes text s'.connection.wire = notes text s.connection.wire := by
    rw [hwire, notes_append, notes_eq_nil fun m hm => hsilent m hm text,
      List.append_nil]
  constructor
  · rw [htable]
    exact h.nodup
  · rw [htable]
    exact h.named
  · intro p v hp hv
    rw [htable, hnotes]
    exact (h.told p v hp hv).mono hclosed
  · intro text htext
    rw [hnotes]
    exact h.foreign text htext

/-! ## Closing all documents -/

theorem notes_closings (text : String) (uris : List Url) :
    notes text (uris.map closing) =
      List.replicate ((uris.map Url.text).count text) .closed := by
  induction uris with
  | nil =>
      rfl
  | cons uri rest ih =>
      have hcons : notes text ((uri :: rest).map closing) =
          notes text [closing uri] ++ notes text (rest.map closing) :=
        notes_append text [closing uri] (rest.map closing)
      have hnote : (closing uri).note? text = if uri.text =
          text then some .closed else none :=
        Message.note?_closeParams text uri
      rw [hcons, ih, List.map_cons, List.count_cons, notes,
        List.filterMap_cons, hnote]
      by_cases htext : uri.text = text
      · simp [htext, List.replicate_succ]
      · simp [htext]

theorem find?_of_mem (h : s.InSessions) {state : DocumentState}
    (hmem : (path, state) ∈ s.table) :
    s.table.find? path = some state := by
  have hnodup := h.nodup
  generalize s.table = t at hmem hnodup
  induction t with
  | nil =>
      exact nomatch hmem
  | cons e rest ih =>
      obtain ⟨p, first⟩ := e
      obtain ⟨hnot, hrest⟩ := List.nodup_cons.mp hnodup
      rw [DocumentTable.find?]
      rcases List.mem_cons.mp hmem with heq | hmem
      · obtain ⟨rfl, rfl⟩ := Prod.mk.inj heq
        exact if_pos rfl
      · have hne : p ≠ path := by
          rintro rfl
          exact hnot (List.mem_map.mpr ⟨_, hmem, rfl⟩)
        rw [if_neg hne]
        exact ih hmem hrest

theorem exists_of_mem_opened (h : s.InSessions) {d : OpenDocument}
    (hd : d ∈ s.table.opened) :
    ∃ path, s.table.find? path = some (.opened d) ∧ path.IsReal ∧
    Url.ofPath? path = some d.uri := by
  obtain ⟨⟨path, state⟩, hmem, hdocument⟩ := List.mem_filterMap.mp hd
  cases state with
  | opened e =>
      obtain rfl : e = d := Option.some.inj hdocument
      exact ⟨path, h.find?_of_mem hmem, h.named path e hmem⟩
  | closed =>
      exact nomatch hdocument

theorem nodup_uris (h : s.InSessions) :
    ((s.table.opened.map OpenDocument.uri).map Url.text).Nodup := by
  have hpaths : s.table.Pairwise fun e e' => e.1 ≠ e'.1 :=
    List.pairwise_map.mp h.nodup
  rw [List.map_map, List.Nodup, List.pairwise_map, DocumentTable.opened,
    List.pairwise_filterMap]
  refine hpaths.imp_of_mem ?_
  rintro ⟨p, state⟩ ⟨q, state'⟩ hp hq hne d hd e he htext
  cases state with
  | opened d' =>
      cases state' with
      | opened e' =>
          obtain rfl : d' = d := Option.some.inj hd
          obtain rfl : e' = e := Option.some.inj he
          obtain ⟨hreal, huri⟩ := h.named p d' hp
          obtain ⟨hreal', huri'⟩ := h.named q e' hq
          exact hne (eq_of_text hreal hreal' huri huri' htext)
      | closed =>
          cases he
  | closed =>
      cases hd

section ClosingAll

variable {told left : List Url}
  (huris : s.table.opened.map OpenDocument.uri = told ++ left)
include huris

theorem notes_told_eq_nil {text : String}
    (hnone : ∀ d ∈ s.table.opened, d.uri.text ≠ text) :
    notes text (told.map closing) = [] := by
  have hnot : text ∉ told.map Url.text := by
    intro hmem
    obtain ⟨uri, huri, htext⟩ := List.mem_map.mp hmem
    have hopened : uri ∈ s.table.opened.map OpenDocument.uri := by
      rw [huris]
      exact List.mem_append_left left huri
    obtain ⟨d, hd, rfl⟩ := List.mem_map.mp hopened
    exact hnone d hd htext
  rw [notes_closings, List.count_eq_zero_of_not_mem hnot, List.replicate_zero]

/-- The server is told once that an open document is closed, or not at all. -/
theorem notes_told (h : s.InSessions) {d : OpenDocument}
    (hd : d ∈ s.table.opened) :
    notes d.uri.text (told.map closing) = [.closed] ∨
      left ≠ [] ∧ notes d.uri.text (told.map closing) = [] := by
  have hnodup : (told.map Url.text ++ left.map Url.text).Nodup := by
    rw [← List.map_append, ← huris]
    exact h.nodup_uris
  by_cases htold : d.uri.text ∈ told.map Url.text
  · have hcount :=
      List.count_eq_one_of_mem (List.nodup_append.mp hnodup).1 htold
    exact .inl (by rw [notes_closings, hcount, List.replicate_one])
  · have hnone : left ≠ [] := by
      rintro rfl
      rw [List.append_nil] at huris
      exact htold (huris ▸ List.mem_map_of_mem (List.mem_map_of_mem hd))
    refine .inr ⟨hnone, ?_⟩
    rw [notes_closings, List.count_eq_zero_of_not_mem htold,
      List.replicate_zero]

theorem closeAll (h : s.InSessions) {c : Connection}
    (hwire : c.wire = s.connection.wire ++ told.map closing)
    (hleft : left ≠ [] → c.closed = true)
    (hclosed : c.closed = false → s.connection.closed = false) :
    InSessions ⟨c, s.table.closeEach⟩ where
  nodup := by
    rw [DocumentTable.closeEach, List.map_map]
    exact h.nodup
  named path d hd := by
    obtain ⟨e, -, heq⟩ := List.mem_map.mp hd
    cases heq
  told path uri hreal huri := by
    have htold := h.told path uri hreal huri
    -- of a document that is not open nothing more is told
    have hother (hnot : ∀ d, s.table.find? path ≠ some (.opened d)) :
        notes uri.text (told.map closing) = [] := by
      refine notes_told_eq_nil huris ?_
      intro d hd htext
      obtain ⟨p, hp, hreal', huri'⟩ := h.exists_of_mem_opened hd
      obtain rfl := eq_of_text hreal' hreal huri' huri htext
      exact hnot d hp
    rw [find?_closeEach, hwire, notes_append]
    cases hstate : s.table.find? path with
    | none =>
        rw [hother (by simp [hstate]), List.append_nil]
        rw [hstate] at htold
        exact htold.mono hclosed
    | some state =>
        rw [hstate] at htold
        cases state with
        | closed =>
            rw [hother (by simp [hstate]), List.append_nil]
            exact htold.mono hclosed
        | opened d =>
            obtain rfl :=
              Option.some.inj (huri.symm.trans (h.named_of_find? hstate).2)
            rcases notes_told huris h (mem_opened_of_find? hstate) with
              heq | ⟨hne, heq⟩
            · rw [heq]
              exact htold.close.mono hclosed
            · rw [heq, List.append_nil, hleft hne]
              exact htold.lose
  foreign text htext := by
    have hnone : notes text (told.map closing) = [] := by
      refine notes_told_eq_nil huris ?_
      intro d hd
      obtain ⟨p, -, hreal, huri⟩ := h.exists_of_mem_opened hd
      exact htext p d.uri hreal huri
    rw [hwire, notes_append, h.foreign text htext, hnone]
    rfl

end ClosingAll

/-! ## Every run -/

theorem turn (h : s.InSessions) (hturn : Turn s s' st)
    (hfew : ∀ d ∈ s'.table.opened, d.version < Nat.pow 2 31) :
    s'.InSessions := by
  cases hturn with
  | rests htable hsent hclosed =>
      exact h.rest htable hsent hclosed
  | opens path d hreal huri hversion hbefore hlive hafter =>
      have hnotes (text : String) :=
        notes_open text (d := d) (by rw [hversion]; decide)
      have hnot : ∀ e, s.table.find? path ≠ some (.opened e) := by
        rcases hbefore with hnone | ⟨hclosed, -⟩
        · simp [hnone]
        · simp [hclosed]
      have htold := h.told path d.uri hreal huri
      rw [hlive] at htold
      rw [hafter]
      refine h.set hreal huri rfl ?_ id
        (fun e he => by rw [DocumentState.opened.inj he]) ?_
      · intro text htext
        rw [hnotes, if_neg htext.symm]
      · rw [hnotes, if_pos rfl, hversion]
        exact htold.reopen hnot hversion
  | changes path d e hd huri hversion hafter =>
      obtain ⟨hreal, hnamed⟩ := h.named_of_find? hd
      have hopened : e ∈ s'.table.opened := by
        rw [hafter]
        exact mem_opened_of_find?
          (DocumentTable.find?_set_self path (.opened e) s.table)
      have hnotes (text : String) :=
        notes_change text e.uri e.content (hfew e hopened)
      have htold := h.told path d.uri hreal hnamed
      rw [hd] at htold
      rw [← huri] at hnamed htold
      rw [hafter]
      refine h.set hreal hnamed rfl ?_ id
        (fun f hf => by rw [DocumentState.opened.inj hf]) ?_
      · intro text htext
        rw [hnotes, if_neg htext.symm]
      · rw [hnotes, if_pos rfl]
        exact htold.change hversion
  | closes path d hd hafter =>
      obtain ⟨hreal, hnamed⟩ := h.named_of_find? hd
      have htold := h.told path d.uri hreal hnamed
      rw [hd] at htold
      rw [hafter]
      refine h.set hreal hnamed rfl ?_ id (fun _ he => nomatch he) ?_
      · intro text htext
        rw [notes_close, if_neg htext.symm]
      · rw [notes_close, if_pos rfl]
        exact htold.close
  | loses path d c hd hwire hclosed hafter =>
      obtain ⟨hreal, hnamed⟩ := h.named_of_find? hd
      have htold := h.told path d.uri hreal hnamed
      rw [hd] at htold
      have hnothing : c.wire = s.connection.wire ++ [] := by
        rw [hwire, List.append_nil]
      rw [hafter]
      refine h.set hreal hnamed hnothing (fun _ _ => rfl) ?_
        (fun _ he => nomatch he) ?_
      · intro hopen
        exact absurd hclosed (Bool.eq_false_iff.mp hopen)
      · rw [hclosed]
        exact (List.append_nil _).symm ▸ htold.lose
  | closesAll told rest c huris hwire hrest hclosed hafter =>
      rw [hafter]
      exact h.closeAll huris hwire hrest hclosed

theorem run {steps : List DocumentStep}
    (hfew : ∀ before, before <+: steps →
      ∀ d ∈ (Documents.run {} before).table.opened,
      d.version < Nat.pow 2 31) : (Documents.run {} steps).InSessions := by
  induction steps using List.reverseRecOn with
  | nil =>
      exact empty
  | append_singleton steps st ih =>
      have hbefore := ih fun before hbefore =>
        hfew before (hbefore.trans (List.prefix_append steps [st]))
      have hafter := hfew _ List.prefix_rfl
      rw [Documents.run, List.foldl_append] at hafter ⊢
      exact hbefore.turn (turn_step _ st) hafter

theorem find?_ne_none (h : s.InSessions) (hreal : path.IsReal)
    (huri : Url.ofPath? path = some uri) {note : DocumentNote}
    (hnote : note ∈ notes uri.text s.connection.wire) :
    s.table.find? path ≠ none := by
  intro hnone
  have htold := h.told path uri hreal huri
  rw [hnone] at htold
  rw [htold.eq_nil] at hnote
  exact nomatch hnote

end InSessions

/-- A document has at most as many versions as there were steps. -/
theorem version_le_length (steps : List DocumentStep) :
    ∀ d ∈ (run {} steps).table.opened, d.version ≤ steps.length := by
  induction steps using List.reverseRecOn with
  | nil =>
      exact fun d hd => nomatch hd
  | append_singleton steps st ih =>
      intro d hd
      rw [run, List.foldl_append] at hd
      rw [List.length_append, List.length_singleton]
      rcases (turn_step (run {} steps) st).opened hd with
        hopened | hversion | ⟨e, he, hversion⟩
      · exact Nat.le_succ_of_le (ih d hopened)
      · omega
      · have hle := ih e he
        omega

theorem sent_of_changeFile {s : Documents} {disk : Disk} {path : FilePath}
    {content : String} {version : Nat}
    (h : (s.changeFile disk path content).1 = .ok version)
    (hfew : ∀ d ∈ (s.changeFile disk path content).2.table.opened,
      d.version < Nat.pow 2 31)
    (hnamed : s.IsNamed) :
    ∃ real uri m, disk.realPath path = .ok real ∧ Url.ofPath? real = some uri ∧
      (s.changeFile disk path content).2.connection.wire =
        s.connection.wire ++ [m] ∧
      m.note? uri.text = some (.changed version) := by
  rcases changeFile_cases disk path content s with
    ⟨real, d, hreal, hd, -, heq⟩ | ⟨f, c, heq, -⟩
  · rw [heq] at h hfew ⊢
    obtain rfl := Except.ok.inj h
    have hopened := mem_opened_of_find? (DocumentTable.find?_set_self real
      (.opened { d with version := d.version + 1, content := content }) s.table)
    refine ⟨real, d.uri, _, hreal, (hnamed real d hd).2, rfl, ?_⟩
    rw [Message.note?_changeParams, if_pos rfl,
      wireVersion_of_lt (hfew _ hopened)]
  · rw [heq] at h
    exact nomatch h

/-- As long as no document is changed 2^31 - 1 times while it is open: what is
told of a document is a prefix of sessions; a change is written under the
version that it returns; and once a document was closed, only reopening it
begins another session. -/
theorem told_in_sessions (steps : List DocumentStep)
    (hfew : ∀ before, before <+: steps →
      ∀ d ∈ (run {} before).table.opened, d.version < Nat.pow 2 31)
    (text : String) :
    (∃ counts : List Nat,
      notes text (run {} steps).connection.wire <+: counts.flatMap session) ∧
    ∀ before st after, steps = before ++ st :: after →
      ∃ sent, ((run {} before).step st).connection.wire =
        (run {} before).connection.wire ++ sent ∧
        (∀ disk path content version, st = .changeFile disk path content →
          (changeFile disk path content (run {} before)).1 = .ok version →
          ∃ real uri m, disk.realPath path = .ok real ∧
          Url.ofPath? real = some uri ∧ sent = [m] ∧
            m.note? uri.text = some (.changed version)) ∧
        (.closed ∈ notes text (run {} before).connection.wire →
          ∀ version, .opened version ∈ notes text sent →
          ∃ disk path, st = .reopenFile disk path) := by
  constructor
  · have h := InSessions.run hfew
    by_cases hnamed : ∃ path uri, path.IsReal ∧ Url.ofPath? path = some uri ∧
      uri.text = text
    · obtain ⟨path, uri, hreal, huri, rfl⟩ := hnamed
      exact (h.told path uri hreal huri).isPrefix
    · refine ⟨[], ?_⟩
      rw [h.foreign text fun path uri hreal huri htext =>
        hnamed ⟨path, uri, hreal, huri, htext⟩]
      exact List.nil_prefix
  · rintro before st after rfl
    have hbegin : before <+: before ++ st :: after := List.prefix_append _ _
    have hnext : before ++ [st] <+: before ++ st :: after := ⟨after, by simp⟩
    have h := InSessions.run fun earlier hearlier =>
      hfew earlier (hearlier.trans hbegin)
    have hversion := hfew _ hnext
    rw [run, List.foldl_append] at hversion
    obtain ⟨sent, hwire, hopens⟩ := (turn_step (run {} before) st).sent
    refine ⟨sent, hwire, ?_, ?_⟩
    · rintro disk path content version rfl hok
      obtain ⟨real, uri, m, hreal, huri, hm, hnote⟩ :=
        sent_of_changeFile hok hversion fun p d hd => h.named_of_find? hd
      exact ⟨real, uri, m, hreal, huri,
        List.append_cancel_left (hwire.symm.trans hm), hnote⟩
    · intro hclosed version hopened
      obtain ⟨m, hm, hnote⟩ := List.mem_filterMap.mp hopened
      rcases hopens m hm text version hnote with
        ⟨path, uri, hreal, huri, rfl, hnone⟩ | hreopened
      · exact absurd hnone (h.find?_ne_none hreal huri hclosed)
      · exact hreopened

def smallSteps : List DocumentStep :=
  [.openFile Client.twoLines.disk Client.smallFile,
    .changeFile Client.twoLines.disk Client.smallFile "3\n",
    .closeFile Client.twoLines.disk Client.smallFile,
    .reopenFile Client.twoLines.disk Client.smallFile]

theorem wire_smallSteps : (run {} smallSteps).connection.wire =
    [.notification openMethod (openParams Client.smallDocument),
      .notification changeMethod
        (changeParams Client.smallDocument.uri 2 "3\n"),
      closing Client.smallDocument.uri,
      .notification openMethod (openParams Client.smallDocument)] := by
  have hreal := canonical_eq_ok_iff.mpr Client.twoLines_realPath
  have hlive (wire : List Message) (t : DocumentTable) (method : String)
      (params : Json) :
      Documents.notify ⟨{ wire := wire }, t⟩ method params =
        (.ok (), ⟨{ wire := wire ++ [.notification method params] }, t⟩) :=
    notify_of_live ⟨rfl, rfl⟩ method params
  simp only [smallSteps, run, List.foldl_cons, List.foldl_nil, step, openFile,
    changeFile, closeFile, reopenFile, hreal, sendOpen, Client.load_twoLines,
    DocumentTable.find?, hlive, setState, DocumentTable.set, if_true]
  rfl

theorem few_of_smallSteps : ∀ before, before <+: smallSteps →
    ∀ d ∈ (run {} before).table.opened, d.version < Nat.pow 2 31 := by
  intro before hbefore d hd
  have hversion := version_le_length before d hd
  have hlength : before.length ≤ 4 := hbefore.length_le
  have hfew : 5 < Nat.pow 2 31 := by decide
  omega

/-- The second session of the file has begun, with version 1. -/
theorem small_file_told_in_sessions :
    notes "file:///a" (run {} smallSteps).connection.wire =
      [.opened 1, .changed 2, .closed, .opened 1] ∧
    ∃ counts : List Nat,
      [.opened 1, .changed 2, .closed, .opened 1] <+: counts.flatMap
        session := by
  have hnotes : notes "file:///a" (run {} smallSteps).connection.wire =
      [.opened 1, .changed 2, .closed, .opened 1] := by
    rw [wire_smallSteps]
    decide +kernel
  refine ⟨hnotes, ?_⟩
  rw [← hnotes]
  exact (told_in_sessions smallSteps few_of_smallSteps "file:///a").1

end Documents
end CodeIntel
