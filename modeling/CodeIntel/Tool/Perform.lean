import CodeIntel.Edit.Lines
import CodeIntel.Edit.Spans
import CodeIntel.Edit.Workspace
import CodeIntel.Lookup.Search
import CodeIntel.Report.Actions
import CodeIntel.Report.Diagnostics
import CodeIntel.Report.References
import CodeIntel.Report.Signatures
import CodeIntel.Report.Symbols
import CodeIntel.Tool.Call

/-!
# Performing tool calls

Each tool asks the language server and reports what it learned as text. A
feature that the server does not offer is refused before anything is sent. Tools
that edit write to the disk first and tell the server afterwards.
-/

namespace CodeIntel

abbrev ToolM (σ : Type) := ExceptT ToolFault (StateM (Client σ))

namespace Tool

variable {σ : Type}

/-! # Steps -/

def ask (step : ClientM σ α) : ToolM σ α := fun c =>
  let (r, c) := step c
  (r.mapError .client, c)

def require (supported : Bool) (feature : String) : ToolM σ Unit :=
  if supported then pure () else throw (.unsupported feature)

def requireFeature (f : Feature) (name : String) : ToolM σ Unit := do
  require ((← getThe (Client σ)).capabilities.supports f) name

/-- The path that a file name stands for: relative ones start at the
workspace. -/
def resolvePath (file : String) : ToolM σ FilePath := do
  pure ((← getThe (Client σ)).root.joinTo (.ofString file))

def toPosition (p : EditorPosition) : ToolM σ Position :=
  ask (liftExcept p.toPosition)

def fileFault (path : FilePath) (e : DiskError) : ToolFault :=
  .file path.text e.message

def readText (path : FilePath) : ToolM σ String := do
  match (← getThe (Client σ)).text path with
  | .ok text => pure text
  | .error e => throw (fileFault path e)

def writeText (path : FilePath) (text : String) : ToolM σ Unit := do
  let c ← getThe (Client σ)
  match c.disk.writeText path text with
  | .ok disk => set { c with disk := disk }
  | .error e => throw (fileFault path e)

def writeAndSync (path : FilePath) (text : String) : ToolM σ Unit := do
  writeText path text
  let _ ← ask (Client.changeFile path text)

/-! # Symbols by name -/

def definition (symbol : String) : ToolM σ String := do
  require (← getThe (Client σ)).capabilities.supportsDefinitionLookup
    "definition lookup"
  let found ← ask (Lookup.definitions symbol)
  pure (Report.definitions symbol found)

def referenceContext : Nat := 2

def referenceSection (file : Url × List Range) : ToolM σ String := do
  let path := file.1.toPath
  let content := (← getThe (Client σ)).text path
  pure (Report.fileReferences path content.toOption file.2 referenceContext)

def references (symbol : String) : ToolM σ String := do
  require (← getThe (Client σ)).capabilities.supportsReferenceLookup
    "find references"
  let found ← ask (Lookup.references symbol)
  if found.isEmpty then pure s!"No references found for symbol: {symbol}"
  else
    let sections ← (References.byFile found).mapM referenceSection
    pure (s!"Found {found.length} reference(s) to {symbol}:\n\n" ++
      String.join sections)

/-! # Diagnostics -/

/-- How long the first report on a file is waited for, in milliseconds. -/
def diagnosticsWait : Nat := 2000

def diagnostics (wait : Nat) (file : String) (context : Nat) (numbers : Bool) :
    ToolM σ String := do
  let path ← resolvePath file
  let uri ← ask (Client.openFile path)
  ask (Client.awaitReport uri wait)
  let found := (← getThe (Client σ)).store.get uri
  let content ← readText path
  pure (Report.diagnostics path content found context numbers)

/-! # Places and documents -/

def hover (p : FilePlace) : ToolM σ String := do
  requireFeature .hover "hover"
  let path ← resolvePath p.file
  let position ← toPosition p.place
  let found ← ask (Client.hover path position)
  pure (Report.hover found)

def documentSymbols (file : String) : ToolM σ String := do
  requireFeature .documentSymbol "document symbols"
  let path ← resolvePath file
  let found ← ask (Client.documentSymbols path)
  pure (Report.documentSymbols path found)

def callHierarchy (p : FilePlace) (direction : CallDirection) :
    ToolM σ String := do
  requireFeature .callHierarchy "call hierarchy"
  let path ← resolvePath p.file
  let position ← toPosition p.place
  match ← ask (Client.prepareCallHierarchy path position) with
  | [] =>
    pure s!"No symbol found at {path.text}:{p.place.line}:{p.place.column}"
  | item :: _ =>
    let found ← ask (Client.calls direction item)
    pure (Report.calls direction item found)

def signatureHelp (p : FilePlace) : ToolM σ String := do
  requireFeature .signatureHelp "signature help"
  let path ← resolvePath p.file
  let position ← toPosition p.place
  let found ← ask (Client.signatureHelp path position)
  let content ← readText path
  pure (Report.signatureHelp found (Excerpt.lineAt content position.line))

def codeActions (file : String) (range : EditorRange) : ToolM σ String := do
  requireFeature .codeAction "code actions"
  let path ← resolvePath file
  if range.stop.compare range.start = .lt then
    throw (.invalidArguments
      s!"range end {range.stop.text} is before its start {range.start.text}")
  let range ← ask (liftExcept range.toRange)
  let found ← ask (Client.codeActions path range)
  pure (Report.codeActions found)

/-- A limit of zero is none. -/
def completionLimit (limit : Option Nat) : Nat :=
  (limit.filter (0 < ·)).getD Report.defaultCompletionLimit

def completions (p : FilePlace) (limit : Option Nat) : ToolM σ String := do
  requireFeature .completion "completion"
  let path ← resolvePath p.file
  let position ← toPosition p.place
  let found ← ask (Client.completion path position)
  pure (Report.completions found (completionLimit limit))

/-! # Edits -/

def editFile (file : String) (edits : List LineEdit) : ToolM σ String := do
  if edits.isEmpty then throw (.invalidArguments "no edits given")
  let path ← resolvePath file
  let _ ← ask (Client.openFile path)
  let current ← readText path
  let (updated, summary) ← liftExcept (LineEdit.apply current edits)
  writeAndSync path updated
  pure summary.text

structure FileUpdate where
  path : FilePath
  edits : Nat
  text : String
deriving DecidableEq, Repr

def prepareUpdate (file : Url × List TextEdit) : ToolM σ FileUpdate := do
  let path := file.1.toPath
  let _ ← ask (Client.openFile path)
  let current ← readText path
  let updated ← liftExcept (TextEdit.applyAll current file.2)
  pure ⟨path, file.2.length, updated⟩

def renameFiles :
    Option WorkspaceEdit → Except ToolFault (UrlMap (List TextEdit))
  | some edit => edit.files
  | none => .ok []

/-- Renames a symbol. Nothing is written before the new texts of all files are
worked out. -/
def renameSymbol (p : FilePlace) (newName : String) : ToolM σ String := do
  requireFeature .rename "rename"
  let newName := Text.trimmed newName
  if newName.isEmpty then throw (.invalidArguments "newName must not be empty")
  let path ← resolvePath p.file
  let position ← toPosition p.place
  let answer ← ask (Client.rename path position newName)
  let files ← liftExcept (renameFiles answer)
  if files.isEmpty then
    pure (s!"No rename edits returned for {path.text}:" ++
      (EditorPosition.ofPosition position).text)
  else
    let updates ← files.mapM prepareUpdate
    updates.forM fun u => writeAndSync u.path u.text
    pure (Report.rename newName (updates.map fun u => (u.path, u.edits)))

/-! # Code lenses -/

def getCodeLens (file : String) : ToolM σ String := do
  requireFeature .codeLens "code lens"
  let path ← resolvePath file
  let lenses ← ask (Client.codeLenses path)
  pure (Report.codeLenses path lenses)

def noSuchLens (index count : Nat) : ToolFault :=
  let available :=
    if count = 0 then "the file has no code lenses"
    else s!"available range: 1-{count}"
  .invalidArguments s!"invalid code lens index {index}; {available}"

/-- The lens with a number that counts from one. -/
def pickLens (index : Nat) (lenses : List CodeLens) :
    Except ToolFault CodeLens :=
  match index, lenses[index - 1]? with
  | 0, _ | _, none => .error (noSuchLens index lenses.length)
  | _, some lens => .ok lens

def resolvedLens (lens : CodeLens) : ToolM σ CodeLens :=
  if lens.command.isSome then pure lens else ask (Client.resolveCodeLens lens)

def executedText (command : Command) (result : Option Json) : String :=
  let headline := "Successfully executed code lens command: " ++
    s!"{command.title} ({command.command})"
  match result with
  | none | some .null => headline
  | some v => s!"{headline}\nResult: {v.render}"

def executeCodeLens (file : String) (index : Nat) : ToolM σ String := do
  requireFeature .codeLens "code lens"
  let path ← resolvePath file
  let lenses ← ask (Client.codeLenses path)
  let lens ← liftExcept (pickLens index lenses)
  match (← resolvedLens lens).command with
  | none =>
    throw (.invalidArguments s!"code lens {index} has no command to execute")
  | some command =>
    let result ← ask (Client.executeCommand command)
    pure (executedText command result)

end Tool

/-- Performs a tool call. The first report on a file is waited for up to `wait`
milliseconds. -/
def ToolCall.perform (wait : Nat) {σ : Type} : ToolCall → ToolM σ String
  | .definition symbol => Tool.definition symbol
  | .references symbol => Tool.references symbol
  | .diagnostics file context numbers =>
    Tool.diagnostics wait file context numbers
  | .hover p => Tool.hover p
  | .documentSymbols file => Tool.documentSymbols file
  | .callHierarchy p direction => Tool.callHierarchy p direction
  | .signatureHelp p => Tool.signatureHelp p
  | .codeActions file range => Tool.codeActions file range
  | .completions p limit => Tool.completions p limit
  | .editFile file edits => Tool.editFile file edits
  | .renameSymbol p newName => Tool.renameSymbol p newName
  | .getCodeLens file => Tool.getCodeLens file
  | .executeCodeLens file index => Tool.executeCodeLens file index

end CodeIntel
