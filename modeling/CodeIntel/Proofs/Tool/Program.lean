import CodeIntel.Proofs.Client.Opening
import CodeIntel.Tool.Perform
import Mathlib.Control.Basic

/-!
# Editing tools step by step

The tools that edit files, as programs that give way to others between any two
of their steps. A file that was written is told to the server by the step right
after it, so that a program cannot write without telling. Run through at once,
the programs are the tools themselves.
-/

namespace CodeIntel

/-- A step that writes no file. -/
inductive EditEffect where
  | openFile (path : FilePath)
  | readText (path : FilePath)
  /-- The tool works something out by itself. -/
  | work
  | rename (path : FilePath) (position : Position) (newName : String)

namespace EditEffect

def Answer : EditEffect → Type
  | .openFile _ => Url
  | .readText _ => String
  | .work => Unit
  | .rename _ _ _ => Option WorkspaceEdit

def act {σ : Type} : (e : EditEffect) → ToolM σ e.Answer
  | .openFile path => Tool.ask (Client.openFile path)
  | .readText path => Tool.readText path
  | .work => pure ()
  | .rename path position newName =>
    Tool.ask (Client.rename path position newName)

end EditEffect

/-! # First steps of a tool -/

namespace Tool

variable {σ : Type}

theorem ask_eq_ok {α : Type} {step : ClientM σ α} {c c' : Client σ} {a : α} :
    ask step c = (.ok a, c') ↔ step c = (.ok a, c') := by
  unfold ask
  cases step c with
  | mk r after =>
      cases r with
      | ok b =>
          constructor
          · intro h
            obtain ⟨hb, rfl⟩ := Prod.mk.inj h
            rw [Except.ok.inj hb]
          · intro h
            obtain ⟨hb, rfl⟩ := Prod.mk.inj h
            rw [Except.ok.inj hb]
            rfl
      | error f =>
          constructor
          · intro h
            exact nomatch (Prod.mk.inj h).1
          · intro h
            exact nomatch (Prod.mk.inj h).1

theorem liftExcept_eq_ok {α : Type} {r : Except ToolFault α}
    {c c' : Client σ} {a : α} :
    (liftExcept r : ToolM σ α) c = (.ok a, c') ↔ r = .ok a ∧ c' = c := by
  cases r with
  | ok b =>
      constructor
      · intro h
        obtain ⟨hb, rfl⟩ := Prod.mk.inj h
        exact ⟨hb, rfl⟩
      · rintro ⟨hb, rfl⟩
        rw [Except.ok.inj hb]
        rfl
  | error f =>
      constructor
      · intro h
        exact nomatch (Prod.mk.inj h).1
      · rintro ⟨hb, -⟩
        exact nomatch hb

theorem requireFeature_apply (f : Feature) (name : String) (c : Client σ) :
    requireFeature f name c =
      (if c.capabilities.supports f then .ok () else .error (.unsupported name),
        c) := by
  show require (c.capabilities.supports f) name c = _
  unfold require
  split <;> rfl

theorem resolvePath_apply (file : String) (c : Client σ) :
    resolvePath file c = (.ok (c.root.joinTo (.ofString file)), c) := rfl

theorem toPosition_apply (p : EditorPosition) (c : Client σ) :
    toPosition p c = (p.toPosition.mapError .client, c) := by
  unfold toPosition ask
  cases p.toPosition <;> rfl

theorem readText_apply (path : FilePath) (c : Client σ) :
    readText path c = ((c.text path).mapError (fileFault path), c) := by
  rw [readText, get_bind_apply]
  cases c.text path <;> rfl

theorem readText_eq_ok {path : FilePath} {c c' : Client σ} {text : String}
    (h : readText path c = (.ok text, c')) :
    c.text path = .ok text ∧ c' = c := by
  rw [readText_apply] at h
  obtain ⟨hread, rfl⟩ := Prod.mk.inj h
  cases htext : c.text path with
  | ok found =>
      rw [htext] at hread
      exact ⟨congrArg Except.ok (Except.ok.inj hread), rfl⟩
  | error e =>
      rw [htext] at hread
      exact nomatch hread

theorem writeText_apply (path : FilePath) (text : String) (c : Client σ) :
    writeText path text c = match c.disk.writeText path text with
      | .ok disk => (.ok (), { c with disk := disk })
      | .error e => (.error (fileFault path e), c) := by
  rw [writeText, get_bind_apply]
  cases c.disk.writeText path text <;> rfl

theorem writeText_eq_ok {path : FilePath} {text : String} {c c' : Client σ}
    (h : writeText path text c = (.ok (), c')) :
    ∃ disk, c.disk.writeText path text = .ok disk ∧
    c' = { c with disk := disk } := by
  rw [writeText_apply] at h
  split at h
  · next disk hwrite =>
      exact ⟨disk, hwrite, (Prod.mk.inj h).2.symm⟩
  · exact nomatch (Prod.mk.inj h).1

end Tool

/-! # Programs -/

inductive EditProgram (α : Type) where
  | ended (result : Except ToolFault α)
  | effect (e : EditEffect) (next : e.Answer → EditProgram α)
  /-- Writes a file, and then tells the server. -/
  | save (path : FilePath) (text : String) (next : EditProgram α)

namespace EditProgram

variable {σ α β : Type}

def bind (p : EditProgram α) (f : α → EditProgram β) : EditProgram β :=
  match p with
  | .ended (.ok a) => f a
  | .ended (.error e) => .ended (.error e)
  | .effect e next => .effect e fun a => (next a).bind f
  | .save path text next => .save path text (next.bind f)

instance : Monad EditProgram where
  pure a := .ended (.ok a)
  bind := bind

def fail (f : ToolFault) : EditProgram α :=
  .ended (.error f)

def openFile (path : FilePath) : EditProgram Url :=
  .effect (.openFile path) pure

def readText (path : FilePath) : EditProgram String :=
  .effect (.readText path) pure

def rename (path : FilePath) (position : Position) (newName : String) :
    EditProgram (Option WorkspaceEdit) :=
  .effect (.rename path position newName) pure

def reckon (r : Except ToolFault α) : EditProgram α :=
  .effect .work fun _ => .ended r

def writeAndSync (path : FilePath) (text : String) : EditProgram Unit :=
  .save path text (pure ())

/-- Runs a program through without giving way. -/
def perform : EditProgram α → ToolM σ α
  | .ended r => liftExcept r
  | .effect e next => do perform (next (← e.act))
  | .save path text next => do
    Tool.writeAndSync path text
    perform next

theorem perform_bind (p : EditProgram α) (f : α → EditProgram β) :
    (p >>= f).perform (σ := σ) = p.perform >>= fun a => (f a).perform := by
  show (p.bind f).perform = _
  induction p with
  | ended r =>
      cases r with
      | ok a =>
          funext c
          rfl
      | error e =>
          rfl
  | effect e next ih =>
      simp only [bind, perform, ih, bind_assoc]
  | save path text next ih =>
      simp only [bind, perform, ih, bind_assoc]

@[simp] theorem perform_pure (a : α) :
    (pure a : EditProgram α).perform (σ := σ) = pure a := rfl

@[simp] theorem perform_fail (f : ToolFault) :
    (fail f : EditProgram α).perform (σ := σ) = throw f :=
  rfl

@[simp] theorem perform_openFile (path : FilePath) :
    (openFile path).perform (σ := σ) = Tool.ask (Client.openFile path) :=
  bind_pure (Tool.ask (Client.openFile path))

@[simp] theorem perform_readText (path : FilePath) :
    (readText path).perform (σ := σ) = Tool.readText path :=
  bind_pure (Tool.readText path)

@[simp] theorem perform_rename (path : FilePath) (position : Position)
    (newName : String) :
    (rename path position newName).perform (σ := σ) =
      Tool.ask (Client.rename path position newName) :=
  bind_pure (Tool.ask (Client.rename path position newName))

@[simp] theorem perform_reckon (r : Except ToolFault α) :
    (reckon r).perform (σ := σ) = liftExcept r :=
  pure_bind () _

@[simp] theorem perform_writeAndSync (path : FilePath) (text : String) :
    (writeAndSync path text).perform (σ := σ) = Tool.writeAndSync path text :=
  bind_pure (Tool.writeAndSync path text)

theorem perform_mapM' {γ : Type} (f : γ → EditProgram α) (items : List γ) :
    (items.mapM' f).perform (σ := σ) = items.mapM fun item =>
      (f item).perform := by
  rw [← List.mapM'_eq_mapM]
  induction items with
  | nil =>
      rfl
  | cons item rest ih =>
      rw [List.mapM'_cons, List.mapM'_cons, perform_bind]
      congr 1
      funext a
      rw [perform_bind, ih]
      rfl

theorem perform_forM {γ : Type} (f : γ → EditProgram PUnit) (items : List γ) :
    (items.forM f).perform (σ := σ) = items.forM fun item =>
      (f item).perform := by
  induction items with
  | nil =>
      rfl
  | cons item rest ih =>
      rw [List.forM, List.forM, perform_bind]
      congr 1
      funext a
      exact ih

/-! # The tools -/

def editFile (root : FilePath) (file : String) (edits : List LineEdit) :
    EditProgram String :=
  if edits.isEmpty then fail (.invalidArguments "no edits given")
  else do
    let path := root.joinTo (.ofString file)
    let _ ← openFile path
    let current ← readText path
    let (updated, summary) ← reckon (LineEdit.apply current edits)
    writeAndSync path updated
    pure summary.text

theorem perform_editFile (file : String) (edits : List LineEdit)
    (c : Client σ) :
    (editFile c.root file edits).perform c = Tool.editFile file edits c := by
  unfold editFile Tool.editFile
  split
  · next hempty =>
      rfl
  · next hedits =>
      simp only [perform_bind, perform_openFile, perform_readText,
        perform_reckon, perform_writeAndSync, perform_pure]
      conv_rhs => rw [bind_apply, Tool.resolvePath_apply]

def prepareUpdate (file : Url × List TextEdit) :
    EditProgram Tool.FileUpdate := do
  let path := file.1.toPath
  let _ ← openFile path
  let current ← readText path
  let updated ← reckon (TextEdit.applyAll current file.2)
  pure ⟨path, file.2.length, updated⟩

theorem perform_prepareUpdate (file : Url × List TextEdit) :
    (prepareUpdate file).perform (σ := σ) = Tool.prepareUpdate file := by
  simp only [prepareUpdate, Tool.prepareUpdate, perform_bind, perform_openFile,
    perform_readText, perform_reckon, perform_pure]

/-- Works out the new texts of some files, and writes them once all are
known. -/
def saveUpdates (newName : String) (files : UrlMap (List TextEdit)) :
    EditProgram String := do
  let updates ← files.mapM' prepareUpdate
  updates.forM fun u => writeAndSync u.path u.text
  pure (Report.rename newName (updates.map fun u => (u.path, u.edits)))

def renameSymbol (root : FilePath) (capabilities : Capabilities) (p : FilePlace)
    (newName : String) :
    EditProgram String :=
  let newName := Text.trimmed newName
  let path := root.joinTo (.ofString p.file)
  if capabilities.supports .rename then
    if newName.isEmpty then fail (.invalidArguments "newName must not be empty")
    else
      match p.place.toPosition with
      | .error f => fail (.client f)
      | .ok position => do
        let answer ← rename path position newName
        let files ← reckon (Tool.renameFiles answer)
        if files.isEmpty then
          pure (s!"No rename edits returned for {path.text}:" ++
            (EditorPosition.ofPosition position).text)
        else saveUpdates newName files
  else fail (.unsupported "rename")

theorem perform_saveUpdates (newName : String)
    (files : UrlMap (List TextEdit)) :
    (saveUpdates newName files).perform (σ := σ) = (do
      let updates ← files.mapM Tool.prepareUpdate
      updates.forM fun u => Tool.writeAndSync u.path u.text
      pure (Report.rename newName (updates.map fun u =>
        (u.path, u.edits)))) := by
  simp only [saveUpdates, perform_bind, perform_mapM', perform_prepareUpdate,
    perform_forM, perform_writeAndSync, perform_pure]

theorem perform_renameSymbol (p : FilePlace) (newName : String) (c : Client σ) :
    (renameSymbol c.root c.capabilities p newName).perform c =
      Tool.renameSymbol p newName c := by
  unfold renameSymbol Tool.renameSymbol
  rw [bind_apply, Tool.requireFeature_apply]
  cases hsupported : c.capabilities.supports .rename with
  | false =>
      rfl
  | true =>
      cases hempty : (Text.trimmed newName).isEmpty with
      | true =>
          simp only [hempty, if_true]
          rfl
      | false =>
          simp only [hempty, if_true, Bool.false_eq_true, if_false]
          rw [bind_apply, Tool.resolvePath_apply]
          simp only
          rw [bind_apply, Tool.toPosition_apply]
          cases p.place.toPosition with
          | error f =>
              rfl
          | ok position =>
              simp only [Except.mapError, perform_bind, perform_rename,
                perform_reckon, apply_ite perform, perform_pure,
                perform_saveUpdates]

end EditProgram

/-! # Step by step -/

/-- What is left of a program between two of its steps. -/
inductive EditTask (α : Type) where
  | ready (rest : EditProgram α)
  /-- A file is written, and the server is told next. -/
  | written (path : FilePath) (text : String) (rest : EditProgram α)

namespace EditTask

variable {σ α β : Type}

def ended (r : Except ToolFault α) : EditTask α :=
  .ready (.ended r)

def proceed (next : β → EditTask α) :
    Except ToolFault β × Client σ → EditTask α × Client σ
  | (.ok b, c) => (next b, c)
  | (.error f, c) => (ended (.error f), c)

def step : EditTask α → Client σ → EditTask α × Client σ
  | .ready (.ended r), c => (ended r, c)
  | .ready (.effect e next), c => proceed (fun a => .ready (next a)) (e.act c)
  | .ready (.save path text rest), c =>
    proceed (fun _ => .written path text rest) (Tool.writeText path text c)
  | .written path text rest, c =>
    proceed (fun _ => .ready rest) (Tool.ask (Client.changeFile path text) c)

theorem proceed_eq {x : Except ToolFault β × Client σ} {next : β → EditTask α}
    {t : EditTask α} {c : Client σ} (h : proceed next x = (t, c))
    (hfault : ∀ f, t ≠ ended (.error f)) :
    ∃ b, x = (.ok b, c) ∧ t = next b := by
  obtain ⟨r, c'⟩ := x
  cases r with
  | ok b =>
      obtain ⟨rfl, rfl⟩ := Prod.mk.inj h
      exact ⟨b, rfl, rfl⟩
  | error f =>
      obtain ⟨rfl, rfl⟩ := Prod.mk.inj h
      exact absurd rfl (hfault f)

theorem step_effect (e : EditEffect) (next : e.Answer → EditProgram α)
    (c : Client σ) :
    ∃ rest, step (.ready (.effect e next)) c = (.ready rest, (e.act c).2) := by
  rw [step]
  cases e.act c with
  | mk r c =>
      cases r with
      | ok a =>
          exact ⟨next a, rfl⟩
      | error f =>
          exact ⟨.ended (.error f), rfl⟩

theorem step_readText {path : FilePath} {text : String} {c : Client σ}
    (h : c.text path = .ok text) (next : String → EditProgram α) :
    step (.ready (.effect (.readText path) next)) c =
      (.ready (next text), c) := by
  show proceed (fun text => .ready (next text)) (Tool.readText path c) = _
  rw [Tool.readText_apply, h]
  rfl

theorem step_save {path : FilePath} {text : String} {c : Client σ} {disk : Disk}
    (h : c.disk.writeText path text = .ok disk) (rest : EditProgram α) :
    step (.ready (.save path text rest)) c =
      (.written path text rest, { c with disk := disk }) := by
  rw [step, Tool.writeText_apply, h]
  rfl

theorem step_refused {path : FilePath} {text : String} {c : Client σ}
    {e : DiskError} (h : c.disk.writeText path text = .error e)
    (rest : EditProgram α) :
    step (.ready (.save path text rest)) c =
      (.ended (.error (Tool.fileFault path e)), c) := by
  rw [step, Tool.writeText_apply, h]
  rfl

theorem step_written {path : FilePath} {text : String} {version : Nat}
    {c c' : Client σ} (h : Client.changeFile path text c = (.ok version, c'))
    (rest : EditProgram α) :
    step (.written path text rest) c = (.ready rest, c') := by
  rw [step, Tool.ask_eq_ok.mpr h]
  rfl

/-- Runs the rest without giving way. -/
def perform : EditTask α → ToolM σ α
  | .ready rest => rest.perform
  | .written path text rest => do
    let _ ← Tool.ask (Client.changeFile path text)
    rest.perform

theorem perform_proceed (x : ToolM σ β) (next : β → EditTask α) (c : Client σ) :
    (proceed next (x c)).1.perform (proceed next (x c)).2 =
      (x >>= fun b => (next b).perform) c := by
  rw [bind_apply]
  cases x c with
  | mk r c =>
      cases r <;> rfl

/-- A step does the first of what is left to do. -/
theorem perform_step (t : EditTask α) (c : Client σ) :
    (t.step c).1.perform (t.step c).2 = t.perform c := by
  cases t with
  | ready rest =>
      cases rest with
      | ended r =>
          rfl
      | effect e next =>
          exact perform_proceed e.act _ c
      | save path text rest =>
          rw [step, perform_proceed]
          simp only [perform, EditProgram.perform, Tool.writeAndSync,
            bind_assoc, pure_bind]
  | written path text rest =>
      exact perform_proceed _ _ c

end EditTask

/-! # An edit, step by step -/

namespace EditProgram

def rewrite (path : FilePath) (edits : List LineEdit) (current : String) :
    EditProgram String := do
  let (updated, summary) ← reckon (LineEdit.apply current edits)
  writeAndSync path updated
  pure summary.text

end EditProgram

namespace EditTask

variable {σ : Type} {c c' : Client σ} {root : FilePath} {file : String}
  {edits : List LineEdit}

def reading (path : FilePath) (edits : List LineEdit) : EditTask String :=
  .ready (.effect (.readText path) (.rewrite path edits))

theorem step_editFile {uri : Url} (hedits : edits.isEmpty = false)
    (hopen : Client.openFile (root.joinTo (.ofString file)) c = (.ok uri, c')) :
    step (.ready (.editFile root file edits)) c =
      (reading (root.joinTo (.ofString file)) edits, c') := by
  rw [EditProgram.editFile, hedits]
  show proceed _ (Tool.ask (Client.openFile (root.joinTo (.ofString file))) c) =
    _
  rw [Tool.ask_eq_ok.mpr hopen]
  rfl

theorem step_rewrite (path : FilePath) (edits : List LineEdit)
    (current : String) (c : Client σ) :
    step (.ready (.rewrite path edits current)) c =
      (.ready (match LineEdit.apply current edits with
        | .ok (updated, summary) =>
          .save path updated (.ended (.ok summary.text))
        | .error f => .ended (.error f)), c) := by
  unfold EditProgram.rewrite
  cases LineEdit.apply current edits <;> rfl

end EditTask

/-! # What a step changes -/

theorem EditEffect.opening_act {σ : Type} (e : EditEffect) (c : Client σ) :
    Client.Opening c (e.act c).2 := by
  cases e with
  | openFile path =>
      exact Client.opening_openFile path c
  | readText path =>
      show Client.Opening c (Tool.readText path c).2
      rw [Tool.readText_apply]
      exact Client.Opening.refl c
  | work =>
      exact Client.Opening.refl c
  | rename path position newName =>
      exact Client.opening_rename path position newName c

/-- What no step of a tool undoes. -/
structure Client.Keeps {σ : Type} (c c' : Client σ) : Prop where
  root : c'.root = c.root
  current : c'.disk.HasCurrent
  real : ∀ {p r}, c.disk.realPath p = .ok r → c'.disk.realPath p = .ok r
  opened : ∀ {r d}, c.documents.table.find? r = some (.opened d) →
    ∃ d', c'.documents.table.find? r = some (.opened d')

theorem Client.Opening.keeps {σ : Type} {c c' : Client σ}
    (h : Client.Opening c c') (hcurrent : c.disk.HasCurrent) :
    Client.Keeps c c' := by
  constructor
  · exact h.root
  · rw [h.disk]
    exact hcurrent
  · intro p r hreal
    rw [h.disk, hreal]
  · intro r d hd
    exact ⟨d, h.opened hd⟩

theorem EditTask.keeps_step {σ α : Type} (t : EditTask α) {c : Client σ}
    (hcurrent : c.disk.HasCurrent) : Client.Keeps c (t.step c).2 := by
  cases t with
  | ready rest =>
      cases rest with
      | ended r =>
          exact (Client.Opening.refl c).keeps hcurrent
      | effect e next =>
          obtain ⟨rest, hstep⟩ := EditTask.step_effect e next c
          rw [hstep]
          exact (e.opening_act c).keeps hcurrent
      | save path text rest =>
          rw [EditTask.step, Tool.writeText_apply]
          cases hwrite : c.disk.writeText path text with
          | error e =>
              exact (Client.Opening.refl c).keeps hcurrent
          | ok disk =>
              obtain ⟨r, -, hover⟩ := Disk.writeText_overwrites hcurrent hwrite
              exact ⟨rfl, hcurrent.writeText hwrite, hover.realPath,
                fun hd => ⟨_, hd⟩⟩
  | written path text rest =>
      rw [EditTask.step, Tool.ask]
      rcases Client.changeFile_cases path text c with
        ⟨r, d, c', -, -, heq, -, hroot, hdisk, htable, -⟩ |
        ⟨f, c', heq, hchange, -⟩
      · rw [heq]
        show Client.Keeps c c'
        constructor
        · exact hroot
        · rw [hdisk]
          exact hcurrent
        · intro p q hreal
          rw [hdisk, hreal]
        · intro q e he
          rw [htable]
          by_cases hq : q = r
          · rw [hq, DocumentTable.find?_set_self]
            exact ⟨_, rfl⟩
          · rw [DocumentTable.find?_set_of_ne hq]
            exact ⟨e, he⟩
      · rw [heq]
        exact hchange.opening.keeps hcurrent

/-! # Tools that succeed -/

namespace Tool

variable {σ : Type} {c c' : Client σ}

theorem writeAndSync_eq_ok {path : FilePath} {text : String}
    (h : writeAndSync path text c = (.ok (), c')) :
    ∃ disk r d, c.disk.writeText path text = .ok disk ∧
    disk.realPath path = .ok r ∧
      c.documents.table.find? r = some (.opened d) ∧ c'.root = c.root ∧
      c'.disk = disk ∧ c'.documents.table = c.documents.table.set r
        (.opened { d with version := d.version + 1, content := text }) ∧
      c'.connection = c.connection.told Documents.changeMethod
        (Documents.changeParams d.uri (d.version + 1) text) := by
  rw [writeAndSync, bind_eq_ok] at h
  obtain ⟨u, written, hwrite, h⟩ := h
  obtain ⟨disk, hdisk, rfl⟩ := writeText_eq_ok hwrite
  rw [bind_eq_ok] at h
  obtain ⟨version, told, htell, h⟩ := h
  obtain ⟨-, rfl⟩ := Prod.mk.inj h
  rw [ask_eq_ok] at htell
  rcases Client.changeFile_cases path text { c with disk := disk } with
    ⟨r, d, after, hreal, hopened, heq, -, hroot, hsame, htable, htold⟩ |
    ⟨f, after, heq, -, -⟩
  · obtain ⟨-, rfl⟩ := Prod.mk.inj (heq.symm.trans htell)
    exact ⟨disk, r, d, hdisk, hreal, hopened, hroot, hsame, htable, htold⟩
  · exact nomatch (Prod.mk.inj (heq.symm.trans htell)).1

theorem editFile_eq_ok {file : String} {edits : List LineEdit} {report : String}
    (h : editFile file edits c = (.ok report, c')) :
    ∃ uri opened current updated summary,
      Client.openFile (c.root.joinTo (.ofString file)) c = (.ok uri, opened) ∧
      opened.text (c.root.joinTo (.ofString file)) = .ok current ∧
      LineEdit.apply current edits = .ok (updated, summary) ∧
      report = summary.text ∧ writeAndSync (c.root.joinTo (.ofString file))
        updated opened = (.ok (), c') := by
  unfold editFile at h
  split at h
  · exact nomatch (Prod.mk.inj h).1
  · simp only [bind_eq_ok] at h
    obtain ⟨path, start, hpath, uri, opened, hopen, current, read, hread,
          result, same, happly, u, told,
      htell, hreport⟩ := h
    obtain ⟨hresolved, rfl⟩ :=
      Prod.mk.inj ((resolvePath_apply file c).symm.trans hpath)
    obtain rfl := Except.ok.inj hresolved
    obtain ⟨htext, rfl⟩ := readText_eq_ok hread
    obtain ⟨hresult, rfl⟩ := liftExcept_eq_ok.mp happly
    obtain ⟨hsummary, rfl⟩ := Prod.mk.inj hreport
    exact ⟨uri, _, current, result.1, result.2, ask_eq_ok.mp hopen,
      htext, hresult, (Except.ok.inj hsummary).symm, htell⟩

theorem text_of_editFile (hcurrent : c.disk.HasCurrent) {file : String}
    {edits : List LineEdit} {report : String}
    (h : editFile file edits c = (.ok report, c')) :
    ∃ text, c'.disk.readText (c.root.joinTo (.ofString file)) = .ok text ∧
      (c'.document? (c.root.joinTo (.ofString file))).map OpenDocument.content =
        some text := by
  obtain ⟨uri, opened, current, updated, summary, hopen, -, -, -, htell⟩ :=
    editFile_eq_ok h
  have hchange := Client.opening_openFile (c.root.joinTo (.ofString file)) c
  rw [hopen] at hchange
  have hcurrent' : opened.disk.HasCurrent := by
    rw [hchange.disk]
    exact hcurrent
  obtain ⟨disk, r, d, hwrite, hreal, -, -, hdisk, htable, -⟩ :=
    writeAndSync_eq_ok htell
  refine ⟨updated, ?_, ?_⟩
  · rw [hdisk]
    exact Disk.readText_writeText hcurrent' hwrite
  · simp only [Client.document?, Documents.document?, hdisk, hreal, htable,
      DocumentTable.find?_set_self, Option.bind_some, DocumentState.document?,
      Option.map_some]

end Tool
end CodeIntel
