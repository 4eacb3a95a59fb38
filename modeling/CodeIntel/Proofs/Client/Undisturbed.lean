import CodeIntel.Client.Queries
import CodeIntel.Proofs.Client.Waiting
import CodeIntel.Proofs.Connection.Sending
import CodeIntel.Proofs.Documents.Mirror

/-!
# What waiting leaves alone

A client that waits for an answer hands over its messages and reads what the
process sends, and the process may end meanwhile. None of this touches the files
or the table of documents, a connection that is closed stays closed, and the
server is told of no changed document.
-/

namespace CodeIntel

/-! # What is written -/

def Message.IsChange : Message → Prop
  | .notification method _ => method = Documents.changeMethod
  | _ => False

namespace Connection

/-- Messages were written behind those on the wire, none of which tells of a new
text. -/
def SaysNoChange (c c' : Connection) : Prop :=
  Sends (fun m => ¬ m.IsChange) c c'

theorem saysNoChange_dispatch (frame : Json) (c : Connection) :
    SaysNoChange c (c.dispatch frame) :=
  .dispatch (fun _ _ => not_false) (fun _ _ => not_false) frame c

theorem saysNoChange_startCall (c : Connection) (method : String)
    (params : Json) :
    SaysNoChange c (c.startCall method params).2 :=
  .startCall (fun _ => not_false) c

end Connection

namespace Client

variable {σ : Type}

/-- The same workspace, files and documents, on a connection that is no less
closed and has not told of a new text. -/
structure Undisturbed (c c' : Client σ) : Prop where
  root : c'.root = c.root
  disk : c'.disk = c.disk
  table : c'.documents.table = c.documents.table
  closed : c'.connection.closed = false → c.connection.closed = false
  sent : Connection.SaysNoChange c.connection c'.connection

namespace Undisturbed

theorem refl (c : Client σ) : Undisturbed c c :=
  ⟨rfl, rfl, rfl, id, .refl _⟩

theorem trans {a b c : Client σ} (hab : Undisturbed a b)
    (hbc : Undisturbed b c) :
    Undisturbed a c :=
  ⟨hbc.root.trans hab.root, hbc.disk.trans hab.disk, hbc.table.trans hab.table,
    hab.closed ∘ hbc.closed, hab.sent.trans hbc.sent⟩

theorem of_same {c c' : Client σ} (hroot : c'.root = c.root)
    (hdisk : c'.disk = c.disk) (hdocuments : c'.documents = c.documents) :
    Undisturbed c c' := by
  constructor
  · exact hroot
  · exact hdisk
  · rw [hdocuments]
  · intro hopen
    rwa [connection, hdocuments] at hopen
  · unfold connection
    rw [hdocuments]
    exact .refl _

end Undisturbed

theorem undisturbed_onConnection (c : Client σ)
    {change : Connection → Connection}
    (h : (change c.connection).closed = false → c.connection.closed = false)
    (hsent : Connection.SaysNoChange c.connection (change c.connection)) :
    Undisturbed c (c.onConnection change) :=
  ⟨rfl, rfl, rfl, h, hsent⟩

theorem undisturbed_close (c : Client σ) :
    Undisturbed c (c.onConnection Connection.close) := by
  apply undisturbed_onConnection
  · exact (Documents.bystands_close c.connection).closed
  · exact .of_wire (Connection.close_wire _)

/-! # Waiting -/

theorem permits_undisturbed : Permits (Undisturbed (σ := σ)) := by
  constructor
  · exact Undisturbed.trans
  · intro c c' hroot hdisk hdocuments _ _
    exact Undisturbed.of_same hroot hdisk hdocuments
  · intro frame c
    apply undisturbed_onConnection
    · exact (Documents.bystands_dispatch c.connection frame).closed
    · exact Connection.saysNoChange_dispatch frame c.connection
  · exact undisturbed_close

theorem undisturbed_settle (c : Client σ) : Undisturbed c c.settle :=
  permits_undisturbed.settle c

/-! # Calls -/

theorem undisturbed_takeReply (id limit : Nat) (c : Client σ) :
    Undisturbed c (c.takeReply id limit).2 := by
  show Undisturbed c (c.onConnection (·.release id))
  apply undisturbed_onConnection
  · intro hopen
    exact (Connection.release_closed c.connection id).symm.trans hopen
  · exact .of_wire (Connection.release_wire _ _)

theorem undisturbed_callUntil (deadline limit : Nat) (method : String)
    (params : Json) (c : Client σ) :
    Undisturbed c (c.callUntil deadline limit method params).2 := by
  have hstart :=
    (Documents.bystands_startCall c.connection method params).closed
  have hsent := Connection.saysNoChange_startCall c.connection method params
  unfold callUntil
  split
  · next f connection heq =>
      rw [heq] at hstart hsent
      exact ⟨rfl, rfl, rfl, hstart, hsent⟩
  · next id connection heq =>
      rw [heq] at hstart hsent
      have hstarted : Undisturbed c (c.onConnection fun _ => connection) :=
        ⟨rfl, rfl, rfl, hstart, hsent⟩
      exact (hstarted.trans (permits_undisturbed.waitUntil _ _ _)).trans
        (undisturbed_takeReply id limit _)

/-- Whatever the answer to a request is, and if there is none. -/
theorem undisturbed_request {α : Type} (r : Request α) (params : Json)
    (c : Client σ) :
    Undisturbed c (request r params c).2 := by
  have hcall : Undisturbed c (call r.method params c).2 :=
    undisturbed_callUntil _ _ r.method params c
  have hdecode : (request r params c).2 = (call r.method params c).2 := by
    rw [request, bind_apply]
    split
    · next value after heq =>
        rw [heq]
        cases r.decode? value <;> rfl
    · next f after heq =>
        rw [heq]
  rw [hdecode]
  exact hcall

end Client
end CodeIntel
