import CodeIntel.Client.Teardown
import CodeIntel.Proofs.Client.Opening
import CodeIntel.Proofs.Documents.Announced

/-!
# Asking about documents that the server has open

A client is used by programs of small effects. Between any two effects of a
program something may happen to the client: frames arrive, the connection goes
away, files change. The one way in which a program asks about a file is to open
it first, and what the request names is what was opened.

The invariant is `IsSound`: the documents agree with what was announced, and
each request about a file names a document that was announced when the request
was written.
-/

namespace CodeIntel

open Documents (Bystands)
open Mock.Server (listener isDocumentMethod)

/-! # Requests about files -/

namespace Request

def fileMethods : List String :=
  [definition.method, references.method, hover.method, documentSymbols.method,
    prepareCallHierarchy.method, completion.method, signatureHelp.method,
    "textDocument/codeAction", rename.method, codeLens.method]

end Request

def Message.asksOf? : Message → Option String
  | .request _ method params =>
    if method ∈ Request.fileMethods then some (documentOf params) else none
  | _ => none

/-- Each request about a file is written while the file is announced. -/
def AsksOfAnnounced (wire : List Message) : Prop :=
  ∀ before m after uri, wire = before ++ m :: after → m.asksOf? = some uri →
    IsAnnounced uri before

namespace AsksOfAnnounced

variable {wire sent : List Message} {m : Message}

theorem nil : AsksOfAnnounced [] := by
  intro before m after uri heq
  exact absurd heq.symm
    (List.append_ne_nil_of_right_ne_nil before (List.cons_ne_nil m after))

theorem snoc (h : AsksOfAnnounced wire)
    (hm : ∀ uri, m.asksOf? = some uri → IsAnnounced uri wire) :
    AsksOfAnnounced (wire ++ [m]) := by
  intro before n after uri heq hasks
  rcases snoc_eq_append_cons heq with ⟨rfl, rfl⟩ | ⟨front, -, hwire⟩
  · exact hm uri hasks
  · exact h before n front uri hwire hasks

theorem append (h : AsksOfAnnounced wire)
    (hsent : ∀ m ∈ sent, m.asksOf? = none) :
    AsksOfAnnounced (wire ++ sent) := by
  induction sent generalizing wire with
  | nil =>
      rwa [List.append_nil]
  | cons m rest ih =>
      rw [List.append_cons]
      refine ih (h.snoc ?_) fun n hn => hsent n (List.mem_cons_of_mem m hn)
      intro uri hasks
      rw [hsent m List.mem_cons_self] at hasks
      exact nomatch hasks

theorem of_sends (h : AsksOfAnnounced wire) {c c' : Connection}
    (hwire : c.wire = wire) (hsends : c.Sends (fun m => m.asksOf? = none) c') :
    AsksOfAnnounced c'.wire := by
  obtain ⟨sent, heq, hsent⟩ := hsends
  rw [heq, hwire]
  exact h.append hsent

end AsksOfAnnounced

namespace Client

variable {σ : Type}

/-! # The invariant -/

structure IsSound (c : Client σ) : Prop where
  mirrored : c.documents.IsMirrored listener
  asked : AsksOfAnnounced c.connection.wire

theorem isSound_fresh (c : Client σ) : IsSound { c with documents := {} } :=
  ⟨Documents.isMirrored_empty listener, .nil⟩

namespace IsSound

variable {c c' : Client σ}

theorem of_same (h : c.IsSound) (hdocuments : c'.documents = c.documents) :
    c'.IsSound := by
  constructor
  · rw [hdocuments]
    exact h.mirrored
  · rw [connection, hdocuments]
    exact h.asked

theorem of_documents (h : c.IsSound)
    (hmirrored : c'.documents.IsMirrored listener)
    (hcontinues : c.documents.Continues (fun m =>
      m.asksOf? = none) c'.documents) : c'.IsSound :=
  ⟨hmirrored, h.asked.of_sends rfl hcontinues.sent⟩

theorem of_bystands (h : c.IsSound) {connection : Connection}
    (hbystands : Bystands c.connection connection)
    (hsends : c.connection.Sends (fun m => m.asksOf? = none) connection) :
    (c.onConnection fun _ => connection).IsSound :=
  ⟨h.mirrored.onConnection (fun _ => connection) hbystands,
    h.asked.of_sends rfl hsends⟩

theorem disconnect (h : c.IsSound) :
    (c.onConnection Connection.close).IsSound :=
  h.of_bystands (Documents.bystands_close c.connection)
    (.of_wire (Connection.close_wire _))

end IsSound

theorem permits_isSound :
    Permits fun c c' : Client σ => c.IsSound → c'.IsSound := by
  constructor
  · intro a b c hab hbc h
    exact hbc (hab h)
  · intro c c' _ _ hdocuments _ _ h
    exact h.of_same hdocuments
  · intro frame c h
    exact h.of_bystands (Documents.bystands_dispatch c.connection frame)
      (.dispatch (fun _ _ => rfl) (fun _ _ => rfl) frame c.connection)
  · intro c h
    exact h.disconnect

end Client

/-! # Disturbances -/

/-- What may happen to a client at any time. -/
inductive Disturbance (σ : Type) where
  /-- What was written reaches the process, and what is due is read. -/
  | exchange
  | receive (frame : Json)
  | disconnect
  | breakPipe
  /-- Files change, time passes, or the process goes on by itself. -/
  | elsewhere (change : Client σ → Client σ)

namespace Client

variable {σ : Type}

def disturb (c : Client σ) : Disturbance σ → Client σ
  | .exchange => c.settle
  | .receive frame => c.dispatch frame
  | .disconnect => c.onConnection Connection.close
  | .breakPipe => c.onConnection Connection.breakPipe
  | .elsewhere change => { change c with documents := c.documents }

def disturbed (c : Client σ) (disturbances : List (Disturbance σ)) : Client σ :=
  disturbances.foldl disturb c

theorem isSound_disturb {c : Client σ} (h : c.IsSound) (d : Disturbance σ) :
    (c.disturb d).IsSound := by
  cases d with
  | exchange =>
      exact permits_isSound.settle c h
  | receive frame =>
      rw [disturb, dispatch]
      split
      · exact permits_isSound.dispatch frame _ (h.of_same rfl)
      · exact permits_isSound.dispatch frame c h
  | disconnect =>
      exact h.disconnect
  | breakPipe =>
      exact h.of_bystands (.of_wire rfl rfl) (.of_wire rfl)
  | elsewhere change =>
      exact h.of_same rfl

theorem table_disturb (c : Client σ) (d : Disturbance σ) :
    (c.disturb d).documents.table = c.documents.table := by
  cases d with
  | exchange =>
      exact (undisturbed_settle c).table
  | receive frame =>
      rw [disturb, dispatch]
      split <;> rfl
  | disconnect | breakPipe | elsewhere change =>
      rfl

theorem disturbed_spec {c : Client σ} (h : c.IsSound)
    (disturbances : List (Disturbance σ)) :
    (c.disturbed disturbances).IsSound ∧
      (c.disturbed disturbances).documents.table = c.documents.table := by
  induction disturbances generalizing c with
  | nil =>
      exact ⟨h, rfl⟩
  | cons d rest ih =>
      obtain ⟨hsound, htable⟩ := ih (isSound_disturb h d)
      exact ⟨hsound, htable.trans (table_disturb c d)⟩

end Client

/-! # Effects -/

/-- What a client does at a time, and does not ask about a file. -/
inductive ClientEffect (σ : Type) : Type → Type where
  | look : ClientEffect σ (Client σ)
  | openFile (path : FilePath) : ClientEffect σ (Except ClientFault Url)
  | reopenFile (path : FilePath) : ClientEffect σ (Except ClientFault Url)
  | changeFile (path : FilePath) (content : String) :
      ClientEffect σ (Except ClientFault Nat)
  | closeFile (path : FilePath) : ClientEffect σ (Except ClientFault Unit)
  | closeDocuments : ClientEffect σ Unit
  | startCall (method : String) (params : Json)
      (hmethod : method ∉ Request.fileMethods) :
    ClientEffect σ (Except ClientFault Nat)
  | notify (method : String) (params : Json)
      (hmethod : isDocumentMethod method = false) :
    ClientEffect σ (Except ClientFault Unit)
  | await (done : Client σ → Bool) (deadline : Nat) : ClientEffect σ Unit
  | takeReply (id limit : Nat) : ClientEffect σ Reply
  /-- Changes the client, but not what it has told the server. -/
  | adjust (change : Client σ → Client σ) : ClientEffect σ Unit
  | disconnect : ClientEffect σ Unit

namespace Client

variable {σ : Type}

def startCall (method : String) (params : Json) (c : Client σ) :
    Except ClientFault Nat × Client σ :=
  let (r, connection) := c.connection.startCall method params
  (r, c.onConnection fun _ => connection)

end Client

namespace ClientEffect

variable {σ β : Type}

def perform : ClientEffect σ β → Client σ → β × Client σ
  | .look, c => (c, c)
  | .openFile path, c => Client.openFile path c
  | .reopenFile path, c => Client.reopenFile path c
  | .changeFile path content, c => Client.changeFile path content c
  | .closeFile path, c => Client.closeFile path c
  | .closeDocuments, c => ((), c.closeDocuments)
  | .startCall method params _, c => c.startCall method params
  | .notify method params _, c => Client.notify method params c
  | .await done deadline, c => ((), c.waitUntil done deadline)
  | .takeReply id limit, c => c.takeReply id limit
  | .adjust change, c => ((), { change c with documents := c.documents })
  | .disconnect, c => ((), c.onConnection Connection.close)

theorem isSound_perform {c : Client σ} (h : c.IsSound) (e : ClientEffect σ β) :
    (e.perform c).2.IsSound := by
  have hquiet (method : String) (params : Json) :
      (Message.notification method params).asksOf? = none := rfl
  cases e with
  | look =>
      exact h
  | openFile path =>
      exact h.of_documents h.mirrored.openFile
        (Documents.continues_openFile hquiet c.disk path _)
  | reopenFile path =>
      exact h.of_documents h.mirrored.reopenFile
        (Documents.continues_reopenFile hquiet c.disk path _)
  | changeFile path content =>
      exact h.of_documents (h.mirrored.changeFile content)
        (Documents.continues_changeFile hquiet c.disk path content _)
  | closeFile path =>
      exact h.of_documents h.mirrored.closeFile
        (Documents.continues_closeFile hquiet c.disk path _)
  | closeDocuments =>
      exact h.of_documents h.mirrored.closeAll
        (Documents.continues_closeAll hquiet _)
  | startCall method params hmethod =>
      exact h.of_bystands
        (Documents.bystands_startCall c.connection method params)
        (.startCall (fun _ => if_neg hmethod) c.connection)
  | notify method params hmethod =>
      have hunheard (server : Mock.Server) :
          server.hear (.notification method params) = server := by
        rw [Mock.Server.hear, hmethod]
        rfl
      exact h.of_bystands (Documents.bystands_write c.connection hunheard)
        (.write (hquiet method params) c.connection)
  | await done deadline =>
      exact Client.permits_isSound.waitUntil done deadline c h
  | takeReply id limit =>
      exact h.of_bystands
        (.of_wire (Connection.release_wire _ _) (Connection.release_closed _ _))
        (.of_wire (Connection.release_wire _ _))
  | adjust change =>
      exact h.of_same rfl
  | disconnect =>
      exact h.disconnect

end ClientEffect

/-! # Programs -/

/-- A program on a client. What comes after an effect depends on its result. -/
inductive ClientProgram (σ : Type) (α : Type) : Type 1 where
  | done (a : α)
  | act {β : Type} (e : ClientEffect σ β) (next : β → ClientProgram σ α)
  /-- Opens a file, and starts a call about the document that was opened. -/
  | ask (path : FilePath) (method : String) (params : Url → Client σ → Json)
    (hparams : ∀ uri c, Message.documentOf (params uri c) = uri.text)
    (next : Except ClientFault Nat → ClientProgram σ α)

abbrev Noise (σ : Type) := Nat → List (Disturbance σ)

namespace Noise

def quiet {σ : Type} : Noise σ := fun _ => []

def after {σ : Type} (n : Nat) (noise : Noise σ) :
    Noise σ := fun i => noise (n + i)

end Noise

namespace ClientProgram

variable {σ α β : Type}

def perform : ClientProgram σ α → Noise σ → Client σ → α × Client σ
  | .done a, _, c => (a, c)
  | .act e next, noise, c =>
    let (b, c) := e.perform (c.disturbed (noise 0))
    (next b).perform (noise.after 1) c
  | .ask path method params _ next, noise, c =>
    match Client.openFile path (c.disturbed (noise 0)) with
    | (.error f, c) => (next (.error f)).perform (noise.after 1) c
    | (.ok uri, c) =>
      let c := c.disturbed (noise 1)
      let (r, c) := c.startCall method (params uri c)
      (next r).perform (noise.after 2) c

/-- A file that was opened may be asked about, whatever has happened since. -/
theorem isSound_ask {c opened : Client σ} (h : c.IsSound) {path : FilePath}
    {uri : Url} (hopen : Client.openFile path c = (.ok uri, opened))
    (disturbances : List (Disturbance σ)) (method : String) {params : Json}
    (hparams : Message.documentOf params = uri.text) :
    ((opened.disturbed disturbances).startCall method params).2.IsSound := by
  have hsound := ClientEffect.isSound_perform h (.openFile path)
  rw [ClientEffect.perform, hopen] at hsound
  obtain ⟨r, d, -, hd, hname⟩ := Client.opened_of_openFile hopen
  obtain ⟨hlater, htable⟩ := Client.disturbed_spec hsound disturbances
  generalize opened.disturbed disturbances = c' at hlater htable ⊢
  have hannounced : IsAnnounced uri.text c'.connection.wire := by
    rw [← hname]
    exact hlater.mirrored.isAnnounced (htable ▸ hd)
  refine ⟨hlater.mirrored.onConnection (fun _ =>
    (c'.connection.startCall method params).2)
    (Documents.bystands_startCall c'.connection method params), ?_⟩
  show AsksOfAnnounced (c'.connection.startCall method params).2.wire
  rcases Connection.startCall_cases c'.connection method params with
    ⟨-, -, heq⟩ | ⟨-, -, heq⟩ | ⟨-, heq⟩
  · rw [heq]
    refine hlater.asked.snoc ?_
    intro other hasks
    rw [Connection.nextRequest, Message.asksOf?] at hasks
    split at hasks
    · rw [← Option.some.inj hasks, hparams]
      exact hannounced
    · cases hasks
  · rw [heq, Connection.release_wire, Connection.close_wire,
      Connection.entered_wire]
    exact hlater.asked
  · rw [heq]
    exact hlater.asked

theorem isSound_perform {c : Client σ} (h : c.IsSound) (p : ClientProgram σ α)
    (noise : Noise σ) :
    (p.perform noise c).2.IsSound := by
  induction p generalizing noise c with
  | done a =>
      exact h
  | act e next ih =>
      exact ih _ (ClientEffect.isSound_perform
        (Client.disturbed_spec h (noise 0)).1 e) _
  | ask path method params hparams next ih =>
      obtain ⟨hsound, -⟩ := Client.disturbed_spec h (noise 0)
      have hopened := ClientEffect.isSound_perform hsound (.openFile path)
      rw [perform]
      split
      · next f c' heq =>
          rw [ClientEffect.perform, heq] at hopened
          exact ih _ hopened _
      · next uri c' heq =>
          exact ih _ (isSound_ask hsound heq (noise 1) method (hparams uri _)) _

/-! # Programs one after another -/

def bind : ClientProgram σ α → (α → ClientProgram σ β) → ClientProgram σ β
  | .done a, f => f a
  | .act e next, f => .act e fun b => (next b).bind f
  | .ask path method params hparams next, f =>
    .ask path method params hparams fun r => (next r).bind f

theorem perform_bind (p : ClientProgram σ α) (f : α → ClientProgram σ β)
    (c : Client σ) :
    (p.bind f).perform .quiet c =
      (f (p.perform .quiet c).1).perform .quiet (p.perform .quiet c).2 := by
  induction p generalizing c with
  | done a =>
      rfl
  | act e next ih =>
      exact ih _ _
  | ask path method params hparams next ih =>
      rw [bind, perform, perform]
      split
      · exact ih _ _
      · exact ih _ _

end ClientProgram
end CodeIntel
