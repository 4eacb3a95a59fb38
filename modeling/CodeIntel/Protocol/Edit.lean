import CodeIntel.Protocol.Position

/-!
# Edits of documents

Text edits of one document, and workspace edits that gather them for many. A
workspace edit with document changes may also create, rename or delete files.
-/

namespace CodeIntel

structure TextEdit where
  range : Range
  newText : String
deriving DecidableEq, Repr

namespace TextEdit

def decode? (v : Json) : Option TextEdit := do
  let v ← v.record? ["range", "newText"]
  let range ← v.field? Range.decode? "range"
  let newText ← v.field? Json.str? "newText"
  some ⟨range, newText⟩

def toJson (e : TextEdit) : Json :=
  Json.ofMembers [("range", e.range.toJson), ("newText", .str e.newText)]

end TextEdit

/-- One entry of a document's edits: a plain edit, or one that names an
annotation. -/
inductive DocumentEditEntry where
  | plain (edit : TextEdit)
  | annotated (edit : TextEdit) (noteId : String)
deriving DecidableEq, Repr

namespace DocumentEditEntry

def edit : DocumentEditEntry → TextEdit
  | .plain e => e
  | .annotated e _ => e

/-- A plain edit is tried first, so an annotation that comes with one is
dropped. -/
def decode? (v : Json) : Option DocumentEditEntry :=
  ((TextEdit.decode? v).map .plain).or do
    let e ← TextEdit.decode? v
    let noteId ← v.field? Json.str? "annotationId"
    some (.annotated e noteId)

def toJson : DocumentEditEntry → Json
  | .plain e => e.toJson
  | .annotated e noteId => e.toJson.set "annotationId" (.str noteId)

end DocumentEditEntry

structure DocumentEdit where
  uri : Url
  version : Option Int
  edits : List DocumentEditEntry
deriving DecidableEq, Repr

namespace DocumentEdit

def decodeIdentifier? (v : Json) : Option (Url × Option Int) := do
  let v ← v.record? ["uri", "version"]
  let uri ← v.field? Url.decode? "uri"
  let version ← v.optional? Json.i32? "version"
  some (uri, version)

def decode? (v : Json) : Option DocumentEdit := do
  let v ← v.record? ["textDocument", "edits"]
  let (uri, version) ← v.field? decodeIdentifier? "textDocument"
  let edits ← v.field? (Json.list? DocumentEditEntry.decode?) "edits"
  some ⟨uri, version, edits⟩

def toJson (d : DocumentEdit) : Json :=
  Json.ofMembers [
    ("textDocument",
      Json.ofMembers [("uri", d.uri.toJson),
        ("version", .ofOption .int d.version)]),
    ("edits", .ofList DocumentEditEntry.toJson d.edits)]

end DocumentEdit

/-- What happens to a file that is in the way of a created or renamed one. -/
structure OverwriteOptions where
  overwrite : Option Bool
  ignoreIfExists : Option Bool
deriving DecidableEq, Repr

namespace OverwriteOptions

def decode? (v : Json) : Option OverwriteOptions := do
  let v ← v.record? ["overwrite", "ignoreIfExists"]
  let overwrite ← v.optional? Json.bool? "overwrite"
  let ignoreIfExists ← v.optional? Json.bool? "ignoreIfExists"
  some ⟨overwrite, ignoreIfExists⟩

def toJson (o : OverwriteOptions) : Json :=
  Json.ofOptions [("overwrite", o.overwrite.map .bool),
    ("ignoreIfExists", o.ignoreIfExists.map .bool)]

end OverwriteOptions

/-- The options of a deletion carry its annotation, too. -/
structure DeleteOptions where
  recursive : Option Bool
  ignoreIfNotExists : Option Bool
  noteId : Option String
deriving DecidableEq, Repr

namespace DeleteOptions

def decode? (v : Json) : Option DeleteOptions := do
  let v ← v.record? ["recursive", "ignoreIfNotExists", "annotationId"]
  let recursive ← v.optional? Json.bool? "recursive"
  let ignoreIfNotExists ← v.optional? Json.bool? "ignoreIfNotExists"
  let noteId ← v.optional? Json.str? "annotationId"
  some ⟨recursive, ignoreIfNotExists, noteId⟩

def toJson (o : DeleteOptions) : Json :=
  Json.ofOptions [("recursive", o.recursive.map .bool),
    ("ignoreIfNotExists", o.ignoreIfNotExists.map .bool),
    ("annotationId", o.noteId.map .str)]

end DeleteOptions

inductive FileOperation where
  | create (uri : Url) (options : Option OverwriteOptions)
      (noteId : Option String)
  | rename (oldUri newUri : Url) (options : Option OverwriteOptions)
      (noteId : Option String)
  | delete (uri : Url) (options : Option DeleteOptions)
deriving DecidableEq, Repr

namespace FileOperation

/-- The kind of an operation and the operation itself. A list begins with the
kind. -/
def tagged? : Json → Option (Json × Json)
  | .arr (kind :: rest) => some (kind, .arr rest)
  | v => (v.get? "kind").map (·, v)

def decodeCreate? (v : Json) : Option FileOperation := do
  let v ← v.record? ["uri", "options", "annotationId"]
  let uri ← v.field? Url.decode? "uri"
  let options ← v.optional? OverwriteOptions.decode? "options"
  let noteId ← v.optional? Json.str? "annotationId"
  some (.create uri options noteId)

def decodeRename? (v : Json) : Option FileOperation := do
  let v ← v.record? ["oldUri", "newUri", "options", "annotationId"]
  let oldUri ← v.field? Url.decode? "oldUri"
  let newUri ← v.field? Url.decode? "newUri"
  let options ← v.optional? OverwriteOptions.decode? "options"
  let noteId ← v.optional? Json.str? "annotationId"
  some (.rename oldUri newUri options noteId)

def decodeDelete? (v : Json) : Option FileOperation := do
  let v ← v.record? ["uri", "options"]
  let uri ← v.field? Url.decode? "uri"
  let options ← v.optional? DeleteOptions.decode? "options"
  some (.delete uri options)

def decode? (v : Json) : Option FileOperation := do
  match ← tagged? v with
  | (.str "create", v) | (.int 0, v) => decodeCreate? v
  | (.str "rename", v) | (.int 1, v) => decodeRename? v
  | (.str "delete", v) | (.int 2, v) => decodeDelete? v
  | _ => none

def toJson : FileOperation → Json
  | .create uri options noteId =>
    Json.ofOptions [("kind", some (.str "create")), ("uri", some uri.toJson),
      ("options", options.map OverwriteOptions.toJson),
      ("annotationId", noteId.map .str)]
  | .rename oldUri newUri options noteId =>
    Json.ofOptions [("kind", some (.str "rename")),
      ("oldUri", some oldUri.toJson),
      ("newUri", some newUri.toJson),
      ("options", options.map OverwriteOptions.toJson),
      ("annotationId", noteId.map .str)]
  | .delete uri options =>
    Json.ofOptions [("kind", some (.str "delete")), ("uri", some uri.toJson),
      ("options", options.map DeleteOptions.toJson)]

end FileOperation

inductive DocumentChange where
  | edit (e : DocumentEdit)
  | operation (op : FileOperation)
deriving DecidableEq, Repr

namespace DocumentChange

def decode? (v : Json) : Option DocumentChange :=
  ((FileOperation.decode? v).map .operation).or
    ((DocumentEdit.decode? v).map .edit)

def toJson : DocumentChange → Json
  | .edit e => e.toJson
  | .operation op => op.toJson

/-- A list of edits alone is tried before a list that mixes in file
operations. -/
def decodeList? (v : Json) : Option (List DocumentChange) :=
  ((Json.list? DocumentEdit.decode? v).map (·.map .edit)).or
    (Json.list? decode? v)

end DocumentChange

structure ChangeNote where
  label : String
  needsConfirmation : Option Bool
  description : Option String
deriving DecidableEq, Repr

namespace ChangeNote

def decode? (v : Json) : Option ChangeNote := do
  let v ← v.record? ["label", "needsConfirmation", "description"]
  let label ← v.field? Json.str? "label"
  let needsConfirmation ← v.optional? Json.bool? "needsConfirmation"
  let description ← v.optional? Json.str? "description"
  some ⟨label, needsConfirmation, description⟩

def toJson (a : ChangeNote) : Json :=
  Json.ofOptions [("label", some (.str a.label)),
    ("needsConfirmation", a.needsConfirmation.map .bool),
    ("description", a.description.map .str)]

end ChangeNote

structure WorkspaceEdit where
  changes : Option (List (Url × List TextEdit))
  documentChanges : Option (List DocumentChange)
  annotations : Option (List (String × ChangeNote))
deriving DecidableEq, Repr

namespace WorkspaceEdit

/-- Sets the value of a URL, whose place stays where it first stood. -/
def setChange (uri : Url) (edits : List TextEdit) :
    List (Url × List TextEdit) → List (Url × List TextEdit)
  | [] => [(uri, edits)]
  | (u, es) :: rest =>
    if u = uri then (uri, edits) :: rest
    else (u, es) :: setChange uri edits rest

/-- The edits of each URL; of two members that name one URL the later one
counts. -/
def decodeChanges? : Json → Option (List (Url × List TextEdit))
  | .obj members => do
    let entries ← members.mapM fun (name, v) => do
      let uri ← Url.parse? name
      let edits ← Json.list? TextEdit.decode? v
      some (uri, edits)
    some (entries.foldl (fun acc (u, es) => setChange u es acc) [])
  | _ => none

def decodeAnnotations? : Json → Option (List (String × ChangeNote))
  | .obj members =>
    members.mapM fun (name, v) => (ChangeNote.decode? v).map (name, ·)
  | _ => none

def decode? (v : Json) : Option WorkspaceEdit := do
  let v ← v.record? ["changes", "documentChanges", "changeAnnotations"]
  let changes ← v.optional? decodeChanges? "changes"
  let documentChanges ← v.optional? DocumentChange.decodeList? "documentChanges"
  let annotations ← v.optional? decodeAnnotations? "changeAnnotations"
  some ⟨changes, documentChanges, annotations⟩

def toJson (w : WorkspaceEdit) : Json :=
  Json.ofOptions [
    ("changes", w.changes.map fun cs =>
      Json.ofMembers (cs.map fun (u, es) =>
        (u.text, .ofList TextEdit.toJson es))),
    ("documentChanges", w.documentChanges.map (.ofList DocumentChange.toJson)),
    ("changeAnnotations", w.annotations.map fun as =>
      Json.ofMembers (as.map fun (name, a) => (name, a.toJson)))]

end WorkspaceEdit
end CodeIntel
