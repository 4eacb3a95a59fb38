import CodeIntel.Proofs.Tool.Program

/-!
# Files and documents in step

Calls of the editing tools run one after another, step by step, while the
process goes on and may go away between any two steps, and the disk may refuse
to write. A file is written before the server is told, and if the server cannot
be told then, its document keeps the text from before: file and document are out
of step, and the next edit starts from a text that lacks the last one. This is
the only way in which they come apart, and it needs a connection that is gone.

The invariant is `Kept`. Between a write and what the server is told of it, the
file is already at the new text, so that the invariant names this text for the
one file and the old one for all others.
-/

namespace CodeIntel

/-! # Calls -/

inductive EditCall where
  | editFile (file : String) (edits : List LineEdit)
  | renameSymbol (place : FilePlace) (newName : String)

namespace EditCall

variable {σ : Type}

def perform : EditCall → ToolM σ String
  | .editFile file edits => Tool.editFile file edits
  | .renameSymbol place newName => Tool.renameSymbol place newName

def program (c : Client σ) : EditCall → EditProgram String
  | .editFile file edits => .editFile c.root file edits
  | .renameSymbol place newName =>
    .renameSymbol c.root c.capabilities place newName

theorem perform_program (call : EditCall) (c : Client σ) :
    (call.program c).perform c = call.perform c := by
  cases call with
  | editFile file edits =>
      exact EditProgram.perform_editFile file edits c
  | renameSymbol place newName =>
      exact EditProgram.perform_renameSymbol place newName c

end EditCall

/-! # Steps of a task -/

namespace EditTask

variable {σ α : Type}

/-- The text of a file that is written while the server is not told yet. -/
def pending? (disk : Disk) (r : FilePath) : EditTask α → Option String
  | .ready _ => none
  | .written path text _ =>
    if disk.realPath path = .ok r then some text else none

/-- The open document that the server is to be told of and cannot be. -/
def untold (t : EditTask α) (c : Client σ) : List FilePath :=
  match t with
  | .ready _ => []
  | .written path text _ =>
    match (Client.changeFile path text c).1, c.disk.realPath path with
    | .error _, .ok r =>
      if (c.documents.document? c.disk path).isSome then [r] else []
    | _, _ => []

theorem mem_untold_iff {path r : FilePath} {text : String}
    {rest : EditProgram α} {c : Client σ} :
    r ∈ (written path text rest).untold c ↔
      (∃ f, (Client.changeFile path text c).1 = .error f) ∧
      c.disk.realPath path = .ok r ∧
        ∃ d, c.documents.table.find? r = some (.opened d) := by
  have hdocument {q : FilePath} (hq : c.disk.realPath path = .ok q) :
      (c.documents.document? c.disk path).isSome ↔
        ∃ d, c.documents.table.find? q = some (.opened d) := by
    simp only [Documents.document?, hq]
    cases c.documents.table.find? q with
    | none =>
        simp
    | some state =>
        cases state <;> simp [DocumentState.document?]
  simp only [untold]
  constructor
  · intro h
    split at h
    · next f q hfailed hq =>
        split at h
        · next hopened =>
            rw [List.mem_singleton] at h
            subst h
            exact ⟨⟨f, hfailed⟩, hq, (hdocument hq).mp hopened⟩
        · cases h
    · cases h
  · rintro ⟨⟨f, hfailed⟩, hr, hopened⟩
    simp only [hfailed, hr, if_pos ((hdocument hr).mpr hopened),
      List.mem_singleton]

end EditTask

/-! # Runs -/

/-- What happens next while calls are made one after another. -/
inductive EditEvent where
  /-- A call is made, unless another one has not ended yet. -/
  | begin (call : EditCall)
  | step
  /-- The disk refuses to write, if a file is to be written next. -/
  | refuse (e : DiskError)
  /-- The process gets our messages and does what is due. -/
  | settle
  | breakPipe
  | disconnect

structure EditRun (σ : Type) where
  client : Client σ
  task : EditTask String
  /-- The open documents whose files were written by a call that could not tell
  the server then. -/
  untold : List FilePath := []

namespace EditRun

variable {σ : Type}

def step (s : EditRun σ) : EditEvent → EditRun σ
  | .begin call =>
    match s.task with
    | .ready (.ended _) => { s with task := .ready (call.program s.client) }
    | _ => s
  | .step =>
    let (task, client) := s.task.step s.client
    ⟨client, task, s.untold ++ s.task.untold s.client⟩
  | .refuse e =>
    match s.task with
    | .ready (.save path _ _) =>
      { s with task := .ended (.error (Tool.fileFault path e)) }
    | _ => s
  | .settle => { s with client := s.client.settle }
  | .breakPipe =>
    { s with client := s.client.onConnection Connection.breakPipe }
  | .disconnect => { s with client := s.client.onConnection Connection.close }

def run (s : EditRun σ) (events : List EditEvent) : EditRun σ :=
  events.foldl step s

theorem step_of_ready {s : EditRun σ} {rest : EditProgram String}
    {task : EditTask String} {c : Client σ} (hrest : s.task = .ready rest)
    (hstep : EditTask.step (.ready rest) s.client = (task, c)) :
    s.step .step = ⟨c, task, s.untold⟩ := by
  simp only [step, hrest, hstep, EditTask.untold, List.append_nil]

theorem step_of_told {s : EditRun σ} {path : FilePath} {text : String}
    {rest : EditProgram String} {version : Nat} {c : Client σ}
    (hrest : s.task = .written path text rest)
    (htold : Client.changeFile path text s.client = (.ok version, c)) :
    s.step .step = ⟨c, .ready rest, s.untold⟩ := by
  simp only [step, hrest, EditTask.step_written htold, EditTask.untold, htold,
    List.append_nil]

theorem step_of_notTold {s : EditRun σ} {path : FilePath} {text : String}
    {rest : EditProgram String} {f : ClientFault} {c : Client σ}
    (hrest : s.task = .written path text rest)
    (hfailed : Client.changeFile path text s.client = (.error f, c)) :
    s.step .step = ⟨c, .ended (.error (.client f)),
      s.untold ++ s.task.untold s.client⟩ := by
  simp only [step, hrest, EditTask.step, Tool.ask, hfailed, Except.mapError,
    EditTask.proceed]

end EditRun

/-! # The invariant -/

/-- What is known of the file of an open document. -/
structure EditRun.Known {σ : Type} (s : EditRun σ) (r : FilePath)
    (d : OpenDocument) : Prop where
  real : s.client.disk.realPath r = .ok r
  readable : ∃ text, s.client.disk.readText r = .ok text
  written : ∀ text, s.task.pending? s.client.disk r = some text →
    s.client.disk.readText r = .ok text
  told : s.task.pending? s.client.disk r = none → r ∉ s.untold →
    s.client.disk.readText r = .ok d.content

/-- While a call is ready for its next step no file is written that the server
was not told of. -/
theorem EditRun.Known.of_ready {σ : Type} {c : Client σ} {disk : Disk}
    {rest : EditProgram String} {untold : List FilePath} {r : FilePath}
    {d : OpenDocument} (hdisk : c.disk = disk) (hreal : disk.realPath r = .ok r)
    (hreadable : ∃ text, disk.readText r = .ok text)
    (htold : r ∉ untold → disk.readText r = .ok d.content) :
    Known ⟨c, .ready rest, untold⟩ r d := by
  subst hdisk
  constructor
  · exact hreal
  · exact hreadable
  · intro text hpending
    cases hpending
  · intro _ huntold
    exact htold huntold

structure EditRun.Kept {σ : Type} (s : EditRun σ) : Prop where
  current : s.client.disk.HasCurrent
  known : ∀ r d, s.client.documents.table.find? r = some (.opened d) →
    s.Known r d
  untold : s.client.connection.closed = false → s.untold = []

namespace EditRun.Kept

variable {σ : Type} {s : EditRun σ} {c' : Client σ} {task : EditTask String}

theorem undisturbed (h : s.Kept) (hchange : Client.Undisturbed s.client c')
    (htask : ∀ r, task.pending? s.client.disk r =
      s.task.pending? s.client.disk r) :
    Kept ⟨c', task, s.untold⟩ := by
  constructor
  · rw [hchange.disk]
    exact h.current
  · intro r d hd
    rw [hchange.table] at hd
    have hknown := h.known r d hd
    constructor
    · simp only [hchange.disk]
      exact hknown.real
    · simp only [hchange.disk]
      exact hknown.readable
    · simp only [hchange.disk, htask]
      exact hknown.written
    · simp only [hchange.disk, htask]
      exact hknown.told
  · intro hopen
    exact h.untold (hchange.closed hopen)

theorem opening {rest rest' : EditProgram String} (h : s.Kept)
    (hchange : Client.Opening s.client c') (hrest : s.task = .ready rest) :
    Kept ⟨c', .ready rest', s.untold⟩ := by
  constructor
  · rw [hchange.disk]
    exact h.current
  · intro r d hd
    rcases hchange.entry r with hsame | ⟨-, d', p, hopened, hreal, hload⟩
    · have hknown := h.known r d (hsame ▸ hd)
      apply Known.of_ready hchange.disk hknown.real hknown.readable
      exact hknown.told (by rw [hrest]; rfl)
    · obtain rfl : d' = d := by simpa [hopened] using hd
      have hread := Documents.readText_of_load hload
      have hreal' := Disk.realPath_real h.current hreal hread
      exact .of_ready hchange.disk hreal' ⟨d'.content, hread⟩ fun _ => hread
  · intro hopen
    exact h.untold (hchange.closed hopen)

theorem save {path : FilePath} {text : String} {rest rest' : EditProgram String}
    {disk : Disk} (h : s.Kept) (hrest : s.task = .ready rest)
    (hwrite : s.client.disk.writeText path text = .ok disk) :
    Kept ⟨{ s.client with disk := disk }, .written path text rest',
      s.untold⟩ := by
  obtain ⟨written, hwritten, hover⟩ :=
    Disk.writeText_overwrites h.current hwrite
  constructor
  · exact h.current.writeText hwrite
  · intro r d hd
    have hknown := h.known r d hd
    obtain ⟨old, hold⟩ := hknown.readable
    have hread := hover.readText hknown.real hold
    have hpending : EditTask.pending? disk r (.written path text rest') =
        if r = written then some text else none := by
      simp only [EditTask.pending?, hwritten, Except.ok.injEq, eq_comm]
    constructor
    · exact hover.realPath hknown.real
    · exact ⟨_, hread⟩
    · intro text' htext
      rw [hpending] at htext
      split at htext
      · next hr =>
          rw [hread, if_pos hr, Option.some.inj htext]
      · exact nomatch htext
    · intro hnone huntold
      rw [hpending] at hnone
      split at hnone
      · exact nomatch hnone
      · next hr =>
          rw [hread, if_neg hr, ← hold]
          exact hknown.told (by rw [hrest]; rfl) huntold
  · exact h.untold

theorem told {path r : FilePath} {text : String}
    {rest rest' : EditProgram String} {d : OpenDocument} (h : s.Kept)
    (hrest : s.task = .written path text rest)
    (hreal : s.client.disk.realPath path = .ok r)
    (hopened : s.client.documents.table.find? r = some (.opened d))
    (hopen : s.client.connection.closed = false)
    (hdisk : c'.disk = s.client.disk)
    (htable : c'.documents.table = s.client.documents.table.set r
      (.opened { d with version := d.version + 1, content := text })) :
    Kept ⟨c', .ready rest', s.untold⟩ := by
  constructor
  · rw [hdisk]
    exact h.current
  · intro q e he
    rw [htable] at he
    by_cases hq : q = r
    · subst hq
      have hknown := h.known q d hopened
      have hwritten : s.client.disk.readText q = .ok text := by
        apply hknown.written
        rw [hrest, EditTask.pending?, if_pos hreal]
      obtain rfl :
          OpenDocument.mk d.path d.uri d.languageId (d.version + 1) text =
            e := by
        simpa [DocumentTable.find?_set_self] using he
      exact .of_ready hdisk hknown.real hknown.readable fun _ => hwritten
    · rw [DocumentTable.find?_set_of_ne hq] at he
      have hknown := h.known q e he
      have hnone : s.task.pending? s.client.disk q = none := by
        rw [hrest, EditTask.pending?, hreal, if_neg]
        intro heq
        exact hq (Except.ok.inj heq).symm
      exact .of_ready hdisk hknown.real hknown.readable (hknown.told hnone)
  · intro _
    exact h.untold hopen

theorem notTold {path : FilePath} {text : String}
    {rest rest' : EditProgram String} {f : ClientFault}
    (h : s.Kept) (hrest : s.task = .written path text rest)
    (heq : Client.changeFile path text s.client = (.error f, c'))
    (hchange : Client.Undisturbed s.client c')
    (hgone : ∀ r d, s.client.disk.realPath path = .ok r →
      s.client.documents.table.find? r = some (.opened d) →
      c'.connection.closed = true) :
    Kept ⟨c', .ready rest', s.untold ++ s.task.untold s.client⟩ := by
  have hfailed : ∃ f, (Client.changeFile path text s.client).1 = .error f :=
    ⟨f, by rw [heq]⟩
  constructor
  · rw [hchange.disk]
    exact h.current
  · intro q e he
    rw [hchange.table] at he
    have hknown := h.known q e he
    apply Known.of_ready hchange.disk hknown.real hknown.readable
    intro huntold
    simp only [List.mem_append, not_or, hrest,
      EditTask.mem_untold_iff] at huntold
    apply hknown.told _ huntold.1
    rw [hrest, EditTask.pending?, if_neg]
    intro hreal
    exact huntold.2 ⟨hfailed, hreal, e, he⟩
  · intro hopen
    rw [h.untold (hchange.closed hopen), List.nil_append,
      List.eq_nil_iff_forall_not_mem]
    intro r hr
    rw [hrest, EditTask.mem_untold_iff] at hr
    obtain ⟨-, hreal, d, hd⟩ := hr
    rw [hgone r d hreal hd] at hopen
    exact nomatch hopen

/-! # Every run -/

theorem taken (h : s.Kept) : (s.step .step).Kept := by
  cases htask : s.task with
  | ready rest =>
      cases rest with
      | ended r =>
          rw [step_of_ready htask rfl]
          exact h.opening (Client.Opening.refl s.client) htask
      | effect e next =>
          obtain ⟨rest, hstep⟩ := EditTask.step_effect e next s.client
          rw [step_of_ready htask hstep]
          exact h.opening (e.opening_act s.client) htask
      | save path text rest =>
          cases hwrite : s.client.disk.writeText path text with
          | error e =>
              rw [step_of_ready htask (EditTask.step_refused hwrite rest)]
              exact h.opening (Client.Opening.refl s.client) htask
          | ok disk =>
              rw [step_of_ready htask (EditTask.step_save hwrite rest)]
              exact h.save htask hwrite
  | written path text rest =>
      rcases Client.changeFile_cases path text s.client with
        ⟨r, d, c', hreal, hopened, heq, hopen, -, hdisk, htable, -⟩ |
        ⟨f, c', heq, hchange, hgone⟩
      · rw [step_of_told htask heq]
        exact h.told htask hreal hopened hopen hdisk htable
      · rw [step_of_notTold htask heq]
        exact h.notTold htask heq hchange hgone

theorem step (h : s.Kept) (event : EditEvent) : (s.step event).Kept := by
  cases event with
  | begin call =>
      rw [EditRun.step]
      split
      · next r htask =>
          exact h.opening (Client.Opening.refl s.client) htask
      · exact h
  | step =>
      exact h.taken
  | refuse e =>
      rw [EditRun.step]
      split
      · next path text rest htask =>
          exact h.opening (Client.Opening.refl s.client) htask
      · exact h
  | settle =>
      exact h.undisturbed (Client.undisturbed_settle s.client) fun _ => rfl
  | breakPipe =>
      exact h.undisturbed (Client.undisturbed_onConnection s.client id
        (.of_wire rfl)) fun _ => rfl
  | disconnect =>
      exact h.undisturbed (Client.undisturbed_close s.client) fun _ => rfl

theorem run (h : s.Kept) (events : List EditEvent) : (s.run events).Kept := by
  induction events generalizing s with
  | nil =>
      exact h
  | cons event rest ih =>
      exact ih (h.step event)

end EditRun.Kept

namespace EditRun

variable {σ : Type}

def firstLine : EditCall :=
  .editFile "a" [⟨1, 1, "A"⟩]

def twoLines : EditRun Unit :=
  ⟨.twoLines, .ended (.ok ""), []⟩

end EditRun
end CodeIntel
