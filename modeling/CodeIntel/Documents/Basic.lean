import CodeIntel.Connection.Basic
import CodeIntel.Disk.Tree
import CodeIntel.Documents.Language
import CodeIntel.Protocol.Position

/-!
# Documents

The server is told about a document before it is asked about it. A file is
opened when it is first needed, with version 1; each change sends the whole text
under the next version. A document that was closed comes back only when it is
reopened.
-/

namespace CodeIntel

structure OpenDocument where
  path : FilePath
  uri : Url
  languageId : String
  /-- One more than the number of changes since it was opened. -/
  version : Nat
  content : String
deriving DecidableEq, Repr

namespace OpenDocument

/-- A version as the server is told it: a signed number of 32 bits, which wraps
around. -/
@[irreducible]
def wireVersion (version : Nat) : Int :=
  Int.bmod version 4294967296

end OpenDocument

inductive DocumentState where
  | opened (d : OpenDocument)
  | closed
deriving DecidableEq, Repr

namespace DocumentState

def document? : DocumentState → Option OpenDocument
  | .opened d => some d
  | .closed => none

end DocumentState

/-- The documents by their real paths. A path that is not listed was never
opened. -/
abbrev DocumentTable := List (FilePath × DocumentState)

namespace DocumentTable

def find? (path : FilePath) : DocumentTable → Option DocumentState
  | [] => none
  | (p, s) :: rest => if p = path then some s else find? path rest

def set (path : FilePath) (state : DocumentState) :
    DocumentTable → DocumentTable
  | [] => [(path, state)]
  | (p, s) :: rest =>
    if p = path then (p, state) :: rest else (p, s) :: set path state rest

def opened (t : DocumentTable) : List OpenDocument :=
  t.filterMap fun e => e.2.document?

def closeEach (t : DocumentTable) : DocumentTable :=
  t.map fun e => (e.1, .closed)

theorem find?_set_self (path : FilePath) (state : DocumentState)
    (t : DocumentTable) :
    find? path (set path state t) = some state := by
  induction t with
  | nil =>
      simp [set, find?]
  | cons e rest ih =>
      obtain ⟨p, s⟩ := e
      simp only [set]
      split
      · next h => simp [find?, h]
      · next h => simp [find?, h, ih]

theorem find?_set_of_ne {path other : FilePath} (h : other ≠ path)
    (state : DocumentState) (t : DocumentTable) :
    find? other (set path state t) = find? other t := by
  induction t with
  | nil =>
      simp [set, find?, h.symm]
  | cons e rest ih =>
      obtain ⟨p, s⟩ := e
      simp only [set]
      split
      · next hp =>
          subst hp
          simp [find?, h.symm]
      · simp [find?, ih]

end DocumentTable

structure Documents where
  connection : Connection := {}
  table : DocumentTable := []

namespace Documents

/-! # Notifications -/

def openMethod : String := "textDocument/didOpen"

def changeMethod : String := "textDocument/didChange"

def closeMethod : String := "textDocument/didClose"

def openParams (d : OpenDocument) : Json :=
  Json.ofMembers [("textDocument", Json.ofMembers [("uri", d.uri.toJson),
    ("languageId", .str d.languageId),
    ("version", .int (OpenDocument.wireVersion d.version)),
    ("text", .str d.content)])]

def changeParams (uri : Url) (version : Nat) (content : String) : Json :=
  Json.ofMembers [
    ("textDocument", Json.ofMembers [("uri", uri.toJson),
      ("version", .int (OpenDocument.wireVersion version))]),
    ("contentChanges", .arr [Json.ofMembers [("text", .str content)]])]

def closeParams (uri : Url) : Json :=
  Json.ofMembers [("textDocument", Json.ofMembers [("uri", uri.toJson)])]

def notify (s : Documents) (method : String) (params : Json) :
    Except ClientFault Unit × Documents :=
  let (r, c) := s.connection.notify method params
  (r, { s with connection := c })

def setState (s : Documents) (path : FilePath) (state : DocumentState) :
    Documents :=
  { s with table := s.table.set path state }

/-! # Paths -/

def canonical (disk : Disk) (path : FilePath) : Except ClientFault FilePath :=
  match disk.realPath path with
  | .ok p => .ok p
  | .error e =>
    .error (.documentNotFound s!"failed to resolve '{path.text}': {e.message}")

def load (disk : Disk) (path : FilePath) : Except ClientFault OpenDocument :=
  match disk.readText path, Url.ofPath? path with
  | .error e, _ =>
    .error (.documentNotFound s!"failed to read '{path.text}': {e.message}")
  | .ok _, none => .error (.documentNotFound s!"invalid path: {path.text}")
  | .ok content, some uri => .ok ⟨path, uri, Language.ofPath path, 1, content⟩

/-! # Operations -/

def sendOpen (disk : Disk) (path : FilePath) (s : Documents) :
    Except ClientFault Url × Documents :=
  match load disk path with
  | .error f => (.error f, s)
  | .ok d =>
    match s.notify openMethod (openParams d) with
    | (.ok (), s) => (.ok d.uri, s.setState path (.opened d))
    | (.error f, s) => (.error f, s)

/-- Makes sure that the server has a file open. A document that was closed stays
closed. -/
def openFile (disk : Disk) (path : FilePath) (s : Documents) :
    Except ClientFault Url × Documents :=
  match canonical disk path with
  | .error f => (.error f, s)
  | .ok path =>
    match s.table.find? path with
    | some (.opened d) => (.ok d.uri, s)
    | some .closed => (.error (.documentClosed path.text), s)
    | none => sendOpen disk path s

/-- Makes sure that the server has a file open, also after it was closed. -/
def reopenFile (disk : Disk) (path : FilePath) (s : Documents) :
    Except ClientFault Url × Documents :=
  match canonical disk path with
  | .error f => (.error f, s)
  | .ok path =>
    match s.table.find? path with
    | some (.opened d) => (.ok d.uri, s)
    | _ => sendOpen disk path s

/-- Replaces the text of an open document; the result is its new version. -/
def changeFile (disk : Disk) (path : FilePath) (content : String)
    (s : Documents) :
    Except ClientFault Nat × Documents :=
  match canonical disk path with
  | .error f => (.error f, s)
  | .ok path =>
    match s.table.find? path with
    | some (.opened d) =>
      let version := d.version + 1
      match s.notify changeMethod (changeParams d.uri version content) with
      | (.ok (), s) =>
        (.ok version, s.setState path
          (.opened { d with version := version, content := content }))
      | (.error f, s) => (.error f, s)
    | some .closed => (.error (.documentClosed path.text), s)
    | none => (.error (.documentNotFound s!"{path.text} is not open"), s)

/-- Closes a document. It counts as closed even if the server could not be
told. -/
def closeFile (disk : Disk) (path : FilePath) (s : Documents) :
    Except ClientFault Unit × Documents :=
  match canonical disk path with
  | .error f => (.error f, s)
  | .ok path =>
    match s.table.find? path with
    | some (.opened d) =>
      (s.setState path .closed).notify closeMethod (closeParams d.uri)
    | _ => (.ok (), s)

/-- Tells the server that documents are closed, whether it can be told or
not. -/
def sendCloses (s : Documents) (uris : List Url) : Documents :=
  uris.foldl (fun s uri => (s.notify closeMethod (closeParams uri)).2) s

def closeAll (s : Documents) : Nat × Documents :=
  let uris := s.table.opened.map OpenDocument.uri
  (uris.length, sendCloses { s with table := s.table.closeEach } uris)

/-! # Queries -/

def document? (disk : Disk) (path : FilePath) (s : Documents) :
    Option OpenDocument :=
  match disk.realPath path with
  | .ok path => (s.table.find? path).bind DocumentState.document?
  | .error _ => none

def byUri? (uri : Url) (s : Documents) : Option OpenDocument :=
  s.table.opened.find? fun d => d.uri = uri

def openCount (s : Documents) : Nat :=
  s.table.opened.length

end Documents
end CodeIntel
