import CodeIntel.Fault
import CodeIntel.Protocol.Edit
import CodeIntel.Url.Map
import CodeIntel.Url.Parts

/-!
# Workspace edits by document

The text edits of each document, in the order in which the server gave them.
Document changes count before plain changes. Edits that create, rename or delete
files are refused.
-/

namespace CodeIntel

/-! # Operations written out -/

namespace FileOperation

/-- The same two options under the name of either operation. -/
def dumpOverwrite (name : String) (o : OverwriteOptions) : String :=
  Dump.record name [("overwrite", Dump.option toString o.overwrite),
    ("ignore_if_exists", Dump.option toString o.ignoreIfExists)]

def dumpDelete (o : DeleteOptions) : String :=
  Dump.record "DeleteFileOptions"
    [("recursive", Dump.option toString o.recursive),
    ("ignore_if_not_exists", Dump.option toString o.ignoreIfNotExists),
    ("annotation_id", Dump.option Dump.text o.noteId)]

def dump : FileOperation → String
  | .create uri options noteId =>
    Dump.variant "Create" (Dump.record "CreateFile" [("uri", uri.dump),
      ("options", Dump.option (dumpOverwrite "CreateFileOptions") options),
      ("annotation_id", Dump.option Dump.text noteId)])
  | .rename oldUri newUri options noteId =>
    Dump.variant "Rename" (Dump.record "RenameFile" [("old_uri", oldUri.dump),
      ("new_uri", newUri.dump),
      ("options", Dump.option (dumpOverwrite "RenameFileOptions") options),
      ("annotation_id", Dump.option Dump.text noteId)])
  | .delete uri options =>
    Dump.variant "Delete" (Dump.record "DeleteFile" [("uri", uri.dump),
      ("options", Dump.option dumpDelete options)])

end FileOperation

namespace WorkspaceEdit

def unsupported (op : FileOperation) : ToolFault :=
  .edit s!"file operations are not supported: {op.dump}"

def documentEdits : List DocumentChange → Except ToolFault (List DocumentEdit)
  | [] => .ok []
  | .operation op :: _ => .error (unsupported op)
  | .edit e :: rest => (documentEdits rest).map (e :: ·)

/-- Adds edits behind those that a document has already. -/
def addEdits (files : UrlMap (List TextEdit)) (uri : Url)
    (edits : List TextEdit) :
    UrlMap (List TextEdit) :=
  files.update uri [] (· ++ edits)

def files (w : WorkspaceEdit) : Except ToolFault (UrlMap (List TextEdit)) :=
  match w.documentChanges with
  | none =>
    .ok ((w.changes.getD []).foldl (fun files c => addEdits files c.1 c.2) [])
  | some changes =>
    match documentEdits changes with
    | .error f => .error f
    | .ok edits =>
      .ok (edits.foldl (fun files d =>
        addEdits files d.uri (d.edits.map DocumentEditEntry.edit)) [])

end WorkspaceEdit
end CodeIntel
