import CodeIntel.Proofs.Client.Opening
import CodeIntel.Proofs.Documents.Mirror

/-!
# Operations on documents that fail

Opening, reopening or changing a file is decided from the disk and the table
alone. Either there is a result at once, or the server is to be told something,
and only when it was told is the new state of the document noted. So an
operation that fails leaves the whole table as it was, whatever the reason, and
also if the connection breaks somewhere inside the message. It has written
nothing unless it is the writing that failed.
-/

namespace CodeIntel
namespace Documents

/-! # Decisions -/

/-- A way to write a message, which may fail anywhere. -/
abbrev Sending :=
  Connection → Message → Except ClientFault Unit × Connection

/-- What an operation on a file comes to before anything is written. -/
inductive Decision (α : Type) where
  | settled (result : Except ClientFault α)
  /-- Once the server is told, the document is open under the path, and the
  operation has its result. -/
  | tells (method : String) (params : Json) (result : α) (path : FilePath)
      (d : OpenDocument)

def Decision.carryOut {α : Type} (send : Sending) :
    Decision α → Documents → Except ClientFault α × Documents
  | .settled result, s => (result, s)
  | .tells method params result path d, s =>
    match send s.connection (.notification method params) with
    | (.ok (), c) =>
      (.ok result, { connection := c, table := s.table.set path (.opened d) })
    | (.error f, c) => (.error f, { s with connection := c })

def decideLoad (disk : Disk) (path : FilePath) : Decision Url :=
  match load disk path with
  | .error f => .settled (.error f)
  | .ok d => .tells openMethod (openParams d) d.uri path d

def decideOpen (disk : Disk) (path : FilePath) (t : DocumentTable) :
    Decision Url :=
  match canonical disk path with
  | .error f => .settled (.error f)
  | .ok path =>
    match t.find? path with
    | some (.opened d) => .settled (.ok d.uri)
    | some .closed => .settled (.error (.documentClosed path.text))
    | none => decideLoad disk path

def decideReopen (disk : Disk) (path : FilePath) (t : DocumentTable) :
    Decision Url :=
  match canonical disk path with
  | .error f => .settled (.error f)
  | .ok path =>
    match t.find? path with
    | some (.opened d) => .settled (.ok d.uri)
    | _ => decideLoad disk path

def decideChange (disk : Disk) (path : FilePath) (content : String)
    (t : DocumentTable) :
    Decision Nat :=
  match canonical disk path with
  | .error f => .settled (.error f)
  | .ok path =>
    match t.find? path with
    | some (.opened d) =>
      .tells changeMethod (changeParams d.uri (d.version + 1) content)
        (d.version + 1) path
        { d with version := d.version + 1, content := content }
    | some .closed => .settled (.error (.documentClosed path.text))
    | none => .settled (.error (.documentNotFound s!"{path.text} is not open"))

section Equations

variable (disk : Disk) (path : FilePath) (s : Documents)

theorem sendOpen_eq_carryOut :
    sendOpen disk path s =
      (decideLoad disk path).carryOut Connection.write s := by
  unfold sendOpen decideLoad
  cases load disk path with
  | error f =>
      rfl
  | ok d =>
      simp only [Decision.carryOut, notify, Connection.notify]
      cases s.connection.write (.notification openMethod (openParams d)) with
      | mk result c =>
          cases result <;> rfl

theorem openFile_eq_carryOut :
    openFile disk path s =
      (decideOpen disk path s.table).carryOut Connection.write s := by
  unfold openFile decideOpen
  cases canonical disk path with
  | error f =>
      rfl
  | ok real =>
      cases hstate : s.table.find? real with
      | none =>
          simp only [hstate]
          exact sendOpen_eq_carryOut disk real s
      | some state =>
          simp only [hstate]
          cases state <;> rfl

theorem reopenFile_eq_carryOut :
    reopenFile disk path s =
      (decideReopen disk path s.table).carryOut Connection.write s := by
  unfold reopenFile decideReopen
  cases canonical disk path with
  | error f =>
      rfl
  | ok real =>
      cases hstate : s.table.find? real with
      | none =>
          simp only [hstate]
          exact sendOpen_eq_carryOut disk real s
      | some state =>
          simp only [hstate]
          cases state with
          | opened d =>
              rfl
          | closed =>
              exact sendOpen_eq_carryOut disk real s

theorem changeFile_eq_carryOut (content : String) :
    changeFile disk path content s =
      (decideChange disk path content s.table).carryOut Connection.write s := by
  unfold changeFile decideChange
  cases canonical disk path with
  | error f =>
      rfl
  | ok real =>
      cases hstate : s.table.find? real with
      | none =>
          simp only [hstate]
          rfl
      | some state =>
          simp only [hstate]
          cases state with
          | closed =>
              rfl
          | opened d =>
              simp only [Decision.carryOut, notify, Connection.notify]
              cases s.connection.write (.notification changeMethod
                  (changeParams d.uri (d.version + 1) content)) with
              | mk result c =>
                  cases result <;> rfl

end Equations

/-! # Faults -/

/-- If an operation fails, the table is as it was, and so is the connection
unless a message could not be written. -/
def SparesOnFault {α : Type} (send : Sending) (s : Documents)
    (ended : Except ClientFault α × Documents) : Prop :=
  ∀ f, ended.1 = .error f → ended.2.table = s.table ∧
    (ended.2.connection = s.connection ∨
      ∃ m, send s.connection m = (.error f, ended.2.connection))

theorem Decision.sparesOnFault {α : Type} (decision : Decision α)
    (send : Sending) (s : Documents) :
    SparesOnFault send s (decision.carryOut send s) := by
  intro f hfault
  cases decision with
  | settled result =>
      exact ⟨rfl, .inl rfl⟩
  | tells method params result path d =>
      rw [carryOut] at hfault ⊢
      cases hsend : send s.connection (.notification method params) with
      | mk told c =>
          cases told with
          | ok _ =>
              rw [hsend] at hfault
              cases hfault
          | error fault =>
              rw [hsend] at hfault
              obtain rfl : fault = f := Except.error.inj hfault
              exact ⟨rfl, .inr ⟨_, hsend⟩⟩

/-- The connection was open, but the other end took no more: now it is closed,
and no message was written. -/
structure BrokeOff (c c' : Connection) (f : ClientFault) : Prop where
  opened : c.closed = false
  broken : c.broken = true
  fault : f = .disconnected
  closes : c' = c.close

structure Unharmed (s s' : Documents) (f : ClientFault) : Prop where
  table : s'.table = s.table
  wire : s'.connection.wire = s.connection.wire
  connection :
    s'.connection = s.connection ∨ BrokeOff s.connection s'.connection f

theorem write_fault {c c' : Connection} {m : Message} {f : ClientFault}
    (h : c.write m = (.error f, c')) : c' = c ∨ BrokeOff c c' f := by
  rcases Connection.write_cases c m with
    ⟨-, -, heq⟩ | ⟨hopen, hbroken, heq⟩ | ⟨-, heq⟩
  · cases heq.symm.trans h
  · obtain ⟨hfault, hafter⟩ := Prod.mk.inj (heq.symm.trans h)
    exact .inr ⟨hopen, hbroken, (Except.error.inj hfault).symm, hafter.symm⟩
  · exact .inl (Prod.mk.inj (heq.symm.trans h)).2.symm

theorem SparesOnFault.unharmed {α : Type} {s : Documents}
    {ended : Except ClientFault α × Documents}
    (h : SparesOnFault Connection.write s ended) {f : ClientFault}
    (hfault : ended.1 = .error f) :
    Unharmed s ended.2 f := by
  obtain ⟨htable, hconnection⟩ := h f hfault
  have hends : ended.2.connection = s.connection ∨
      BrokeOff s.connection ended.2.connection f := by
    rcases hconnection with hsame | ⟨m, hwrite⟩
    · exact .inl hsame
    · exact write_fault hwrite
  refine ⟨htable, ?_, hends⟩
  rcases hends with hsame | hbroke
  · rw [hsame]
  · rw [hbroke.closes, Connection.close_wire]

/-- Whatever state the documents are in: an operation that opens, reopens or
changes a file and fails leaves the whole table as it was, and the connection
too unless the other end has stopped to take what is written. Of the table this
holds however a message is written, and wherever writing it fails. -/
theorem faults_spare_documents (disk : Disk) (path : FilePath)
    (content : String) (s : Documents) :
    (∀ f, (openFile disk path s).1 = .error f →
      Unharmed s (openFile disk path s).2 f) ∧
    (∀ f, (reopenFile disk path s).1 = .error f →
      Unharmed s (reopenFile disk path s).2 f) ∧
    (∀ f, (changeFile disk path content s).1 = .error f →
      Unharmed s (changeFile disk path content s).2 f) ∧
    (∀ send, SparesOnFault send s
      ((decideOpen disk path s.table).carryOut send s) ∧
      SparesOnFault send s ((decideReopen disk path s.table).carryOut send s) ∧
      SparesOnFault send s
        ((decideChange disk path content s.table).carryOut send s)) := by
  refine ⟨?_, ?_, ?_, ?_⟩
  · rw [openFile_eq_carryOut]
    exact fun f => (Decision.sparesOnFault _ _ s).unharmed
  · rw [reopenFile_eq_carryOut]
    exact fun f => (Decision.sparesOnFault _ _ s).unharmed
  · rw [changeFile_eq_carryOut]
    exact fun f => (Decision.sparesOnFault _ _ s).unharmed
  · intro send
    refine ⟨?_, ?_, ?_⟩
    · exact Decision.sparesOnFault _ send s
    · exact Decision.sparesOnFault _ send s
    · exact Decision.sparesOnFault _ send s

def untakenDocuments : Documents :=
  { connection := { broken := true } }

theorem small_file_not_taken :
    (openFile Client.twoLines.disk Client.smallFile untakenDocuments).1 =
      .error .disconnected ∧
    Unharmed untakenDocuments
      (openFile Client.twoLines.disk Client.smallFile untakenDocuments).2
      .disconnected := by
  have hfault :
      (openFile Client.twoLines.disk Client.smallFile untakenDocuments).1 =
      .error .disconnected := by
    have hcanonical := canonical_eq_ok_iff.mpr Client.twoLines_realPath
    simp only [openFile, hcanonical, untakenDocuments,
      DocumentTable.find?, sendOpen, Client.load_twoLines]
    rfl
  exact ⟨hfault,
    (faults_spare_documents Client.twoLines.disk Client.smallFile ""
    untakenDocuments).1 _ hfault⟩

end Documents
end CodeIntel
