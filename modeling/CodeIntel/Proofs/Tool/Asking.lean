import CodeIntel.Proofs.Client.Programs
import CodeIntel.Tool.Perform

/-!
# Whatever asks, asks of open documents

The search for symbols by name and the tools are programs as well, and so is
every operation of a client. So none of them asks a server about a document that
the server does not have open, in whatever order they come and whatever happens
to the client between any two of their effects.
-/

namespace CodeIntel

/-! # Symbols by name -/

namespace Lookup

variable {σ α : Type}

theorem isProgram_attempt {step : ClientM σ α} (h : IsProgram step) :
    IsProgram (attempt step) := by
  have hmap : IsProgram (step.map some : ClientM σ (Option α)) :=
    h.bind fun _ => .pure _
  exact hmap.tryCatch fun _ => .pure none

theorem isProgram_candidates (query : String) :
    IsProgram (candidates query : ClientM σ _) :=
  (Client.isProgram_workspaceSymbols query).bind fun _ => .pure _

theorem isProgram_locate {ask : FilePath → Position → ClientM σ (List Location)}
    (h : ∀ path p, IsProgram (ask path p)) (found : List Candidate) :
    IsProgram (locate ask found) := by
  induction found with
  | nil =>
      exact .pure []
  | cons c rest ih =>
      exact (isProgram_attempt (h _ _)).bind fun _ => ih.bind fun _ => .pure _

theorem isProgram_references (query : String) :
    IsProgram (references query : ClientM σ _) := by
  refine (isProgram_candidates query).bind fun found => ?_
  refine (isProgram_locate (fun path p => ?_) found).bind fun _ => .pure _
  exact Client.isProgram_references path p false

theorem isProgram_enclosingRange (path : FilePath) (l : Location) :
    IsProgram (enclosingRange path l : ClientM σ Range) := by
  refine IsProgram.get.bind fun c => ?_
  split
  · exact (isProgram_attempt (Client.isProgram_documentSymbols path)).bind
      fun _ => .pure _
  · exact .pure _

theorem isProgram_sourceText (path : FilePath) :
    IsProgram (sourceText path : ClientM σ String) := by
  refine IsProgram.get.bind fun c => ?_
  split
  · exact .pure _
  · exact .throw _

theorem isProgram_describe (c : Candidate) (l : Location) :
    IsProgram (describe c l : ClientM σ FoundDefinition) := by
  refine (Client.isProgram_openFile l.uri.toPath).bind fun _ => ?_
  refine (isProgram_enclosingRange l.uri.toPath l).bind fun range => ?_
  exact (isProgram_sourceText l.uri.toPath).bind fun _ => .pure _

theorem isProgram_describeAll (located : List (Candidate × Location)) :
    IsProgram (describeAll located : ClientM σ _) := by
  induction located with
  | nil =>
      exact .pure []
  | cons found rest ih =>
      exact (isProgram_attempt (isProgram_describe found.1 found.2)).bind
        fun _ =>
        ih.bind fun _ => .pure _

theorem isProgram_definitions (query : String) :
    IsProgram (definitions query : ClientM σ _) := by
  refine (isProgram_candidates query).bind fun found => ?_
  refine (isProgram_locate Client.isProgram_definition found).bind
    fun located => ?_
  exact (isProgram_describeAll _).bind fun _ => .pure _

end Lookup

/-! # Tools -/

namespace Tool

variable {σ α : Type}

theorem isProgram_ask {step : ClientM σ α} (h : IsProgram step) :
    IsProgram (ask step : ToolM σ α) :=
  h.map (Except.mapError ToolFault.client)

theorem isProgram_require (supported : Bool) (feature : String) :
    IsProgram (require supported feature : ToolM σ Unit) := by
  unfold require
  split
  · exact .pure _
  · exact .throw _

theorem isProgram_requireFeature (f : Feature) (name : String) :
    IsProgram (requireFeature f name : ToolM σ Unit) :=
  IsProgram.get.bind fun _ => isProgram_require _ name

theorem isProgram_resolvePath (file : String) :
    IsProgram (resolvePath file : ToolM σ FilePath) :=
  IsProgram.get.bind fun _ => .pure _

theorem isProgram_toPosition (p : EditorPosition) :
    IsProgram (toPosition p : ToolM σ Position) :=
  isProgram_ask (.liftExcept _)

theorem isProgram_readText (path : FilePath) :
    IsProgram (readText path : ToolM σ String) := by
  refine IsProgram.get.bind fun c => ?_
  split
  · exact .pure _
  · exact .throw _

theorem isProgram_writeText (path : FilePath) (text : String) :
    IsProgram (writeText path text : ToolM σ Unit) := by
  apply IsProgram.of_same
  intro c
  rw [writeText, get_bind_apply]
  cases c.disk.writeText path text <;> rfl

theorem isProgram_writeAndSync (path : FilePath) (text : String) :
    IsProgram (writeAndSync path text : ToolM σ Unit) := by
  refine (isProgram_writeText path text).bind fun _ => ?_
  exact (isProgram_ask (Client.isProgram_changeFile path text)).bind fun _ =>
    .pure _

theorem isProgram_definition (symbol : String) :
    IsProgram (definition symbol : ToolM σ String) := by
  refine IsProgram.get.bind fun c => ?_
  refine (isProgram_require _ _).bind fun _ => ?_
  exact (isProgram_ask (Lookup.isProgram_definitions symbol)).bind fun _ =>
    .pure _

theorem isProgram_references (symbol : String) :
    IsProgram (references symbol : ToolM σ String) := by
  refine IsProgram.get.bind fun c => ?_
  refine (isProgram_require _ _).bind fun _ => ?_
  refine (isProgram_ask (Lookup.isProgram_references symbol)).bind fun found =>
    ?_
  split
  · exact .pure _
  · refine (IsProgram.mapM (fun file => ?_) _).bind fun _ => .pure _
    exact IsProgram.get.bind fun _ => .pure _

theorem isProgram_diagnostics (wait : Nat) (file : String) (context : Nat)
    (numbers : Bool) :
    IsProgram (diagnostics wait file context numbers : ToolM σ String) := by
  refine (isProgram_resolvePath file).bind fun path => ?_
  refine (isProgram_ask (Client.isProgram_openFile path)).bind fun uri => ?_
  refine (isProgram_ask (Client.isProgram_awaitReport uri wait)).bind fun _ =>
    ?_
  refine IsProgram.get.bind fun c => ?_
  exact (isProgram_readText path).bind fun _ => .pure _

theorem isProgram_hover (p : FilePlace) :
    IsProgram (hover p : ToolM σ String) := by
  refine (isProgram_requireFeature _ _).bind fun _ => ?_
  refine (isProgram_resolvePath p.file).bind fun path => ?_
  refine (isProgram_toPosition p.place).bind fun position => ?_
  exact (isProgram_ask (Client.isProgram_hover path position)).bind fun _ =>
    .pure _

theorem isProgram_documentSymbols (file : String) :
    IsProgram (documentSymbols file : ToolM σ String) := by
  refine (isProgram_requireFeature _ _).bind fun _ => ?_
  refine (isProgram_resolvePath file).bind fun path => ?_
  exact (isProgram_ask (Client.isProgram_documentSymbols path)).bind fun _ =>
    .pure _

theorem isProgram_callHierarchy (p : FilePlace) (direction : CallDirection) :
    IsProgram (callHierarchy p direction : ToolM σ String) := by
  refine (isProgram_requireFeature _ _).bind fun _ => ?_
  refine (isProgram_resolvePath p.file).bind fun path => ?_
  refine (isProgram_toPosition p.place).bind fun position => ?_
  refine (isProgram_ask
    (Client.isProgram_prepareCallHierarchy path position)).bind fun items => ?_
  cases items with
  | nil =>
      exact .pure _
  | cons item rest =>
      exact (isProgram_ask (Client.isProgram_calls direction item)).bind
        fun _ => .pure _

theorem isProgram_signatureHelp (p : FilePlace) :
    IsProgram (signatureHelp p : ToolM σ String) := by
  refine (isProgram_requireFeature _ _).bind fun _ => ?_
  refine (isProgram_resolvePath p.file).bind fun path => ?_
  refine (isProgram_toPosition p.place).bind fun position => ?_
  refine (isProgram_ask (Client.isProgram_signatureHelp path position)).bind
    fun found => ?_
  exact (isProgram_readText path).bind fun _ => .pure _

theorem isProgram_codeActions (file : String) (range : EditorRange) :
    IsProgram (codeActions file range : ToolM σ String) := by
  refine (isProgram_requireFeature _ _).bind fun _ => ?_
  refine (isProgram_resolvePath file).bind fun path => ?_
  have hasked : IsProgram (do
      let range ← ask (liftExcept range.toRange)
      let found ← ask (Client.codeActions path range)
      pure (Report.codeActions found) : ToolM σ String) := by
    refine (isProgram_ask (.liftExcept range.toRange)).bind fun range => ?_
    exact (isProgram_ask (Client.isProgram_codeActions path range)).bind
      fun _ => .pure _
  split
  · exact (IsProgram.throw _).bind fun _ => hasked
  · exact hasked

theorem isProgram_completions (p : FilePlace) (limit : Option Nat) :
    IsProgram (completions p limit : ToolM σ String) := by
  refine (isProgram_requireFeature _ _).bind fun _ => ?_
  refine (isProgram_resolvePath p.file).bind fun path => ?_
  refine (isProgram_toPosition p.place).bind fun position => ?_
  exact (isProgram_ask (Client.isProgram_completion path position)).bind
    fun _ => .pure _

theorem isProgram_editFile (file : String) (edits : List LineEdit) :
    IsProgram (editFile file edits : ToolM σ String) := by
  unfold editFile
  split
  · exact .throw _
  · refine (isProgram_resolvePath file).bind fun path => ?_
    refine (isProgram_ask (Client.isProgram_openFile path)).bind fun _ => ?_
    refine (isProgram_readText path).bind fun current => ?_
    refine (IsProgram.liftExcept _).bind fun result => ?_
    exact (isProgram_writeAndSync path result.1).bind fun _ => .pure _

theorem isProgram_prepareUpdate (file : Url × List TextEdit) :
    IsProgram (prepareUpdate file : ToolM σ FileUpdate) := by
  refine (isProgram_ask (Client.isProgram_openFile file.1.toPath)).bind fun _ =>
    ?_
  refine (isProgram_readText file.1.toPath).bind fun current => ?_
  exact (IsProgram.liftExcept _).bind fun _ => .pure _

theorem isProgram_renameSymbol (p : FilePlace) (newName : String) :
    IsProgram (renameSymbol p newName : ToolM σ String) := by
  refine (isProgram_requireFeature _ _).bind fun _ => ?_
  dsimp only
  split
  · exact .throw _
  · refine (isProgram_resolvePath p.file).bind fun path => ?_
    refine (isProgram_toPosition p.place).bind fun position => ?_
    refine (isProgram_ask (Client.isProgram_rename path position _)).bind
      fun answer => ?_
    refine (IsProgram.liftExcept _).bind fun files => ?_
    split
    · exact .pure _
    · have hprepare :
          IsProgram (files.mapM prepareUpdate : ToolM σ (List FileUpdate)) :=
        .mapM isProgram_prepareUpdate files
      refine hprepare.bind fun updates => ?_
      have hsync (u : FileUpdate) :
          IsProgram (writeAndSync u.path u.text : ToolM σ Unit) :=
        isProgram_writeAndSync u.path u.text
      have hsave := IsProgram.forM hsync updates
      exact hsave.bind fun _ => .pure _

theorem isProgram_getCodeLens (file : String) :
    IsProgram (getCodeLens file : ToolM σ String) := by
  refine (isProgram_requireFeature _ _).bind fun _ => ?_
  refine (isProgram_resolvePath file).bind fun path => ?_
  exact (isProgram_ask (Client.isProgram_codeLenses path)).bind fun _ => .pure _

theorem isProgram_resolvedLens (lens : CodeLens) :
    IsProgram (resolvedLens lens : ToolM σ CodeLens) := by
  unfold resolvedLens
  split
  · exact .pure lens
  · exact isProgram_ask (Client.isProgram_resolveCodeLens lens)

theorem isProgram_executeCodeLens (file : String) (index : Nat) :
    IsProgram (executeCodeLens file index : ToolM σ String) := by
  refine (isProgram_requireFeature _ _).bind fun _ => ?_
  refine (isProgram_resolvePath file).bind fun path => ?_
  refine (isProgram_ask (Client.isProgram_codeLenses path)).bind fun lenses =>
    ?_
  refine (IsProgram.liftExcept _).bind fun lens => ?_
  refine (isProgram_resolvedLens lens).bind fun resolved => ?_
  split
  · exact .throw _
  · exact (isProgram_ask (Client.isProgram_executeCommand _)).bind fun _ =>
      .pure _

theorem isProgram_perform (wait : Nat) (call : ToolCall) :
    IsProgram (call.perform wait : ToolM σ String) := by
  cases call with
  | definition symbol =>
      exact isProgram_definition symbol
  | references symbol =>
      exact isProgram_references symbol
  | diagnostics file context numbers =>
      exact isProgram_diagnostics wait file context numbers
  | hover p =>
      exact isProgram_hover p
  | documentSymbols file =>
      exact isProgram_documentSymbols file
  | callHierarchy p direction =>
      exact isProgram_callHierarchy p direction
  | signatureHelp p =>
      exact isProgram_signatureHelp p
  | codeActions file range =>
      exact isProgram_codeActions file range
  | completions p limit =>
      exact isProgram_completions p limit
  | editFile file edits =>
      exact isProgram_editFile file edits
  | renameSymbol p newName =>
      exact isProgram_renameSymbol p newName
  | getCodeLens file =>
      exact isProgram_getCodeLens file
  | executeCodeLens file index =>
      exact isProgram_executeCodeLens file index

end Tool

/-! # Questions about files -/

inductive FileQuery where
  | definition (path : FilePath) (p : Position)
  | references (path : FilePath) (p : Position) (includeDeclaration : Bool)
  | hover (path : FilePath) (p : Position)
  | documentSymbols (path : FilePath)
  | prepareCallHierarchy (path : FilePath) (p : Position)
  | completion (path : FilePath) (p : Position)
  | signatureHelp (path : FilePath) (p : Position)
  | codeActions (path : FilePath) (range : Range)
  | rename (path : FilePath) (p : Position) (newName : String)
  | codeLenses (path : FilePath)

namespace FileQuery

variable {σ : Type}

def path : FileQuery → FilePath
  | .definition path _ | .references path _ _ | .hover path
      _ | .documentSymbols path
  | .prepareCallHierarchy path _ | .completion path _ | .signatureHelp path _
  | .codeActions path _ | .rename path _ _ | .codeLenses path => path

def perform : FileQuery → ClientM σ Unit
  | .definition path p => do let _ ← Client.definition path p
  | .references path p includeDeclaration => do
    let _ ← Client.references path p includeDeclaration
  | .hover path p => do let _ ← Client.hover path p
  | .documentSymbols path => do let _ ← Client.documentSymbols path
  | .prepareCallHierarchy path p =>
    do let _ ← Client.prepareCallHierarchy path p
  | .completion path p => do let _ ← Client.completion path p
  | .signatureHelp path p => do let _ ← Client.signatureHelp path p
  | .codeActions path range => do let _ ← Client.codeActions path range
  | .rename path p newName => do let _ ← Client.rename path p newName
  | .codeLenses path => do let _ ← Client.codeLenses path

theorem isProgram_perform (q : FileQuery) :
    IsProgram (q.perform : ClientM σ Unit) := by
  cases q with
  | definition path p =>
      exact (Client.isProgram_definition path p).bind fun _ => .pure ()
  | references path p includeDeclaration =>
      exact (Client.isProgram_references path p includeDeclaration).bind
        fun _ => .pure ()
  | hover path p =>
      exact (Client.isProgram_hover path p).bind fun _ => .pure ()
  | documentSymbols path =>
      exact (Client.isProgram_documentSymbols path).bind fun _ => .pure ()
  | prepareCallHierarchy path p =>
      exact (Client.isProgram_prepareCallHierarchy path p).bind fun _ =>
        .pure ()
  | completion path p =>
      exact (Client.isProgram_completion path p).bind fun _ => .pure ()
  | signatureHelp path p =>
      exact (Client.isProgram_signatureHelp path p).bind fun _ => .pure ()
  | codeActions path range =>
      exact (Client.isProgram_codeActions path range).bind fun _ => .pure ()
  | rename path p newName =>
      exact (Client.isProgram_rename path p newName).bind fun _ => .pure ()
  | codeLenses path =>
      exact (Client.isProgram_codeLenses path).bind fun _ => .pure ()

theorem bind_of_error {ε α β : Type} {x : ExceptT ε (StateM (Client σ)) α}
    {c c' : Client σ} {e : ε} (h : x c = (.error e, c'))
    (f : α → ExceptT ε (StateM (Client σ)) β) :
    (x >>= f) c = (.error e, c') := by
  rw [bind_apply, h]

/-- A question about a file that cannot be opened ends there. -/
theorem perform_of_failed {q : FileQuery} {c c' : Client σ} {f : ClientFault}
    (h : Client.openFile q.path c = (.error f, c')) :
    q.perform c = (.error f, c') := by
  have hplace {α : Type} (r : Request α) (p : Position) (members : Members) :
      Client.askPlace r q.path p members c = (.error f, c') := bind_of_error h _
  have hdocument {α : Type} (r : Request α) :
      Client.askDocument r q.path c = (.error f, c') :=
    bind_of_error h _
  cases q with
  | definition path p | prepareCallHierarchy path p =>
      exact bind_of_error (bind_of_error (hplace _ p _) _) _
  | references path p includeDeclaration =>
      exact bind_of_error (bind_of_error (hplace _ p _) _) _
  | hover path p | completion path p | signatureHelp path p =>
      exact bind_of_error (hplace _ p _) _
  | rename path p newName =>
      exact bind_of_error (hplace _ p _) _
  | documentSymbols path =>
      exact bind_of_error (hdocument _) _
  | codeLenses path =>
      exact bind_of_error (bind_of_error (hdocument _) _) _
  | codeActions path range =>
      exact bind_of_error (bind_of_error h _) _

end FileQuery

/-! # Operations of a client -/

inductive ClientOperation where
  | openFile (path : FilePath)
  | reopenFile (path : FilePath)
  | changeFile (path : FilePath) (content : String)
  | closeFile (path : FilePath)
  | ask (q : FileQuery)
  | workspaceSymbols (query : String)
  | calls (direction : CallDirection) (item : CallItem)
  | resolveCodeLens (lens : CodeLens)
  | executeCommand (command : Command)
  | awaitReport (uri : Url) (limit : Nat)
  | lookUpDefinitions (query : String)
  | lookUpReferences (query : String)
  | callTool (wait : Nat) (call : ToolCall)
  | handshake
  | close

namespace ClientOperation

variable {σ : Type}

def perform : ClientOperation → Client σ → Client σ
  | .openFile path, c => (Client.openFile path c).2
  | .reopenFile path, c => (Client.reopenFile path c).2
  | .changeFile path content, c => (Client.changeFile path content c).2
  | .closeFile path, c => (Client.closeFile path c).2
  | .ask q, c => (q.perform c).2
  | .workspaceSymbols query, c => (Client.workspaceSymbols query c).2
  | .calls direction item, c => (Client.calls direction item c).2
  | .resolveCodeLens lens, c => (Client.resolveCodeLens lens c).2
  | .executeCommand command, c => (Client.executeCommand command c).2
  | .awaitReport uri limit, c => (Client.awaitReport uri limit c).2
  | .lookUpDefinitions query, c => (Lookup.definitions query c).2
  | .lookUpReferences query, c => (Lookup.references query c).2
  | .callTool wait call, c => (call.perform wait c).2
  | .handshake, c => (Client.handshake c).2
  | .close, c => c.close.2

theorem isProgram_perform (op : ClientOperation) :
    IsProgram fun c : Client σ => ((), op.perform c) := by
  have hdone {α : Type} {x : Client σ → α × Client σ} (h : IsProgram x) :
      IsProgram fun c => ((), (x c).2) := h.map fun _ => ()
  cases op with
  | openFile path =>
      exact hdone (Client.isProgram_openFile path)
  | reopenFile path =>
      exact hdone (Client.isProgram_reopenFile path)
  | changeFile path content =>
      exact hdone (Client.isProgram_changeFile path content)
  | closeFile path =>
      exact hdone (Client.isProgram_closeFile path)
  | ask q =>
      exact hdone q.isProgram_perform
  | workspaceSymbols query =>
      exact hdone (Client.isProgram_workspaceSymbols query)
  | calls direction item =>
      exact hdone (Client.isProgram_calls direction item)
  | resolveCodeLens lens =>
      exact hdone (Client.isProgram_resolveCodeLens lens)
  | executeCommand command =>
      exact hdone (Client.isProgram_executeCommand command)
  | awaitReport uri limit =>
      exact hdone (Client.isProgram_awaitReport uri limit)
  | lookUpDefinitions query =>
      exact hdone (Lookup.isProgram_definitions query)
  | lookUpReferences query =>
      exact hdone (Lookup.isProgram_references query)
  | callTool wait call =>
      exact hdone (Tool.isProgram_perform wait call)
  | handshake =>
      exact hdone Client.isProgram_handshake
  | close =>
      exact hdone Client.isProgram_close

end ClientOperation

/-! # Every run -/

namespace Client

variable {σ : Type}

def performAll (c : Client σ) (operations : List ClientOperation) : Client σ :=
  operations.foldl (fun c op => op.perform c) c

/-- Performs programs one after another, each with what happens meanwhile. -/
def performPrograms (c : Client σ)
    (programs : List (ClientProgram σ Unit × Noise σ)) : Client σ :=
  programs.foldl (fun c p => (p.1.perform p.2 c).2) c

theorem IsSound.performPrograms {c : Client σ} (h : c.IsSound)
    (programs : List (ClientProgram σ Unit × Noise σ)) :
    (c.performPrograms programs).IsSound := by
  induction programs generalizing c with
  | nil =>
      exact h
  | cons p rest ih =>
      exact ih (ClientProgram.isSound_perform h p.1 p.2)

theorem IsSound.performAll {c : Client σ} (h : c.IsSound)
    (operations : List ClientOperation) :
    (c.performAll operations).IsSound := by
  induction operations generalizing c with
  | nil =>
      exact h
  | cons op rest ih =>
      obtain ⟨p, hp⟩ := op.isProgram_perform (σ := σ)
      have hsound := ClientProgram.isSound_perform h p .quiet
      rw [← hp c] at hsound
      exact ih hsound

/-- On a new client, whatever it works with: in every run of its operations each
request about a file is written while the file is announced. The operations are
programs, and the same holds of every run of programs, whatever happens before
each of their effects. If a file cannot be opened, nothing is written and
nothing asked. -/
theorem asks_of_announced (c : Client σ) :
    (∀ operations, AsksOfAnnounced
      (({ c with documents := {} } : Client σ).performAll
        operations).connection.wire) ∧
    (∀ op : ClientOperation, IsProgram fun c : Client σ => ((), op.perform c)) ∧
    (∀ programs, AsksOfAnnounced
      (({ c with documents := {} } : Client σ).performPrograms
        programs).connection.wire) ∧
    (∀ (q : FileQuery) (before after : Client σ) (f : ClientFault),
      openFile q.path before = (.error f, after) →
        q.perform before = (.error f, after) ∧
        after.connection.wire = before.connection.wire) := by
  refine ⟨?_, ClientOperation.isProgram_perform, ?_, ?_⟩
  · intro operations
    exact ((isSound_fresh c).performAll operations).asked
  · intro programs
    exact ((isSound_fresh c).performPrograms programs).asked
  · intro q before after f hfailed
    refine ⟨FileQuery.perform_of_failed hfailed, ?_⟩
    rw [openFile_apply] at hfailed
    rcases Documents.openFile_cases before.disk q.path before.documents with
      ⟨r, d, -, -, heq⟩ | ⟨r, d, -, -, -, -, heq⟩ |
      ⟨f', connection, heq, hwire, -⟩
    · rw [heq] at hfailed
      exact nomatch (Prod.mk.inj hfailed).1
    · rw [heq] at hfailed
      exact nomatch (Prod.mk.inj hfailed).1
    · rw [heq] at hfailed
      obtain ⟨-, rfl⟩ := Prod.mk.inj hfailed
      exact hwire

end Client
end CodeIntel
