import CodeIntel.Documents.Basic
import CodeIntel.Mock.Server
import CodeIntel.Proofs.Json.Members

/-!
# What the scripted server knows of documents

The effect of each notification about a document on the documents that the
server keeps: it concerns the document that the notification names, and no other
one.
-/

namespace CodeIntel
namespace Mock
namespace Server

open Documents

/-! # Keeping documents -/

theorem document?_setDocument (s : Server) (uri other : String) (d : Document) :
    (s.setDocument uri d).document? other =
      if other = uri then some d else s.document? other := by
  by_cases h : other = uri
  · simp [setDocument, document?, Fixture.under?, h]
  · have hne : uri ≠ other := Ne.symm h
    simp only [setDocument, document?, Fixture.under?, if_neg h]
    rw [List.find?_cons_of_neg (by simpa using hne), List.find?_filter]
    congr 2
    funext e
    by_cases he : e.1 = other
    · simp [he, h]
    · simp [he]

theorem document?_changeDocument (s : Server) (uri other : String)
    (change : Document → Document) :
    (s.changeDocument uri change).document? other =
      if other = uri then (s.document? uri).map change
      else s.document? other := by
  unfold changeDocument
  split
  · next d hd =>
      rw [document?_setDocument, hd]
      rfl
  · next hd =>
      by_cases h : other = uri
      · rw [if_pos h, h, hd]
        rfl
      · rw [if_neg h]

theorem document?_publish (s : Server) (uri other : String) :
    (s.publish uri).document? other = s.document? other := by
  unfold publish
  split <;> rfl

/-! # Hearing of documents -/

theorem textAt_openParams (d : OpenDocument) :
    textAt ["textDocument", "uri"] (openParams d) = d.uri.text ∧
      textAt ["textDocument", "text"] (openParams d) = d.content := by
  simp [textAt, openParams, Json.follow?_ofMembers, Json.lastMember?,
    Json.follow?_nil, Url.toJson, Json.str?]

theorem i64?_wireVersion (version : Nat) :
    (Json.int (OpenDocument.wireVersion version)).i64? =
      some (OpenDocument.wireVersion version) := by
  unfold OpenDocument.wireVersion
  have hlo : -2147483648 ≤ Int.bmod version 4294967296 := Int.le_bmod (by omega)
  have hhi : Int.bmod version 4294967296 < 2147483648 := Int.bmod_lt (by omega)
  exact Json.i64?_int (by omega) (by omega)

theorem versionOf_eq {params : Json} {v : Int}
    (hfollow : params.follow? ["textDocument", "version"] = some (.int v))
    (hv : (Json.int v).i64? = some v) : versionOf params = v := by
  rw [versionOf, hfollow, Option.bind_some, hv, Option.getD_some]

theorem versionOf_openParams (d : OpenDocument) :
    versionOf (openParams d) = OpenDocument.wireVersion d.version := by
  refine versionOf_eq ?_ (i64?_wireVersion d.version)
  simp [openParams, Json.follow?_ofMembers, Json.lastMember?, Json.follow?_nil]

theorem textAt_changeParams (uri : Url) (version : Nat) (content : String) :
    textAt ["textDocument", "uri"] (changeParams uri version content) =
      uri.text ∧ textAt ["contentChanges", "0", "text"]
        (changeParams uri version content) = content := by
  simp [textAt, changeParams, Json.follow?_ofMembers, Json.follow?_first,
    Json.lastMember?, Json.follow?_nil, Url.toJson, Json.str?]

theorem versionOf_changeParams (uri : Url) (version : Nat) (content : String) :
    versionOf (changeParams uri version content) =
      OpenDocument.wireVersion version := by
  refine versionOf_eq ?_ (i64?_wireVersion version)
  simp [changeParams, Json.follow?_ofMembers, Json.lastMember?,
    Json.follow?_nil]

theorem textAt_closeParams (uri : Url) :
    textAt ["textDocument", "uri"] (closeParams uri) = uri.text := by
  simp [textAt, closeParams, Json.follow?_ofMembers, Json.lastMember?,
    Json.follow?_nil, Url.toJson, Json.str?]

theorem document?_noteOpen (s : Server) (d : OpenDocument) :
    ∃ opens, ∀ other, (s.noteOpen (openParams d)).document? other =
      if other = d.uri.text then
        some ⟨OpenDocument.wireVersion d.version, d.content, true, opens⟩
      else s.document? other := by
  obtain ⟨huri, htext⟩ := textAt_openParams d
  refine ⟨((s.document? d.uri.text).map Document.opens).getD 0 + 1,
    fun other => ?_⟩
  rw [noteOpen, document?_publish, document?_setDocument, huri, htext,
    versionOf_openParams]

theorem document?_noteChange (s : Server) (uri : Url) (version : Nat)
    (content : String) (other : String) :
    (s.noteChange (changeParams uri version content)).document? other =
      if other = uri.text then
        (s.document? uri.text).map fun d =>
          { d with
            version := OpenDocument.wireVersion version, text := content }
      else s.document? other := by
  obtain ⟨huri, htext⟩ := textAt_changeParams uri version content
  rw [noteChange, document?_publish, document?_changeDocument, huri, htext,
    versionOf_changeParams]

theorem document?_noteClose (s : Server) (uri : Url) (other : String) :
    (s.noteClose (closeParams uri)).document? other =
      if other = uri.text then (s.document? uri.text).map fun d =>
        { d with isOpen := false }
      else s.document? other := by
  rw [noteClose, document?_changeDocument, textAt_closeParams]

end Server
end Mock
end CodeIntel
