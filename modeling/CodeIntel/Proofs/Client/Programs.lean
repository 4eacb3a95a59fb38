import CodeIntel.Client.Handshake
import CodeIntel.Client.Teardown
import CodeIntel.Proofs.Client.Asking

/-!
# What a client does is a program

The operations of a client are put together from effects by what follows on
what, and so each of them is a program. A question about a file opens the file
and names what was opened; the other requests are about no file.
-/

namespace CodeIntel

/-! # Computations that are programs -/

/-- What a computation does to a client is done by a program, as long as nothing
else happens. -/
def IsProgram {σ α : Type} (x : Client σ → α × Client σ) : Prop :=
  ∃ p : ClientProgram σ α, ∀ c, x c = p.perform .quiet c

namespace IsProgram

section Combinators

variable {σ α β : Type} {x : Client σ → α × Client σ}

theorem of_effect (e : ClientEffect σ α) : IsProgram e.perform :=
  ⟨.act e .done, fun _ => rfl⟩

theorem andThen (hx : IsProgram x) {f : α → Client σ → β × Client σ}
    (hf : ∀ a, IsProgram (f a)) :
    IsProgram fun c => f (x c).1 (x c).2 := by
  obtain ⟨p, hp⟩ := hx
  refine ⟨p.bind fun a => (hf a).choose, ?_⟩
  intro c
  rw [ClientProgram.perform_bind, ← hp c]
  exact (hf (x c).1).choose_spec (x c).2

theorem map (hx : IsProgram x) (g : α → β) :
    IsProgram fun c => (g (x c).1, (x c).2) :=
  hx.andThen fun a => ⟨.done (g a), fun _ => rfl⟩

theorem look {f : Client σ → Client σ → α × Client σ}
    (hf : ∀ c, IsProgram (f c)) :
    IsProgram fun c => f c c :=
  (of_effect .look).andThen hf

theorem of_same (h : ∀ c, (x c).2.documents = c.documents) : IsProgram x := by
  refine ⟨.act .look fun c =>
    .act (.adjust fun c => (x c).2) fun _ => .done (x c).1, ?_⟩
  intro c
  show x c = ((x c).1, { (x c).2 with documents := c.documents })
  rw [← h c]

end Combinators

/-! # Steps that may fail -/

section Steps

variable {σ ε ε' α β : Type} {x : ExceptT ε (StateM (Client σ)) α}

theorem pure (a : α) : IsProgram (pure a : ExceptT ε (StateM (Client σ)) α) :=
  of_same fun _ => rfl

theorem throw (e : ε) : IsProgram (throw e : ExceptT ε (StateM (Client σ)) α) :=
  of_same fun _ => rfl

theorem get :
    IsProgram (getThe (Client σ) : ExceptT ε (StateM (Client σ)) (Client σ)) :=
  of_same fun _ => rfl

theorem liftExcept (r : Except ε α) :
    IsProgram (liftExcept r : ExceptT ε (StateM (Client σ)) α) := by
  cases r with
  | ok a =>
      exact .pure a
  | error e =>
      exact .throw e

theorem bind (hx : IsProgram x) {f : α → ExceptT ε (StateM (Client σ)) β}
    (hf : ∀ a, IsProgram (f a)) : IsProgram (x >>= f) := by
  have hnext (r : Except ε α) : IsProgram fun c => match r, c with
      | .ok a, c => f a c
      | .error e, c => (.error e, c) := by
    cases r with
    | ok a =>
        exact hf a
    | error e =>
        exact .throw e
  have heq : (x >>= f) = fun c => match (x c).1, (x c).2 with
      | .ok a, c => f a c
      | .error e, c => (.error e, c) := by
    funext c
    rw [bind_apply]
    cases x c with
    | mk r c =>
        cases r <;> rfl
  rw [heq]
  exact hx.andThen hnext

theorem tryCatch (hx : IsProgram x) {h : ε → ExceptT ε (StateM (Client σ)) α}
    (hh : ∀ e, IsProgram (h e)) : IsProgram (tryCatch x h) := by
  have hnext (r : Except ε α) : IsProgram fun c => match r, c with
      | .ok a, c => (.ok a, c)
      | .error e, c => h e c := by
    cases r with
    | ok a =>
        exact .pure a
    | error e =>
        exact hh e
  have heq : tryCatchThe ε x h = fun c => match (x c).1, (x c).2 with
      | .ok a, c => (.ok a, c)
      | .error e, c => h e c := by
    funext c
    show (match x c with
      | (r, c) => (match r with
        | .ok a => Pure.pure (.ok a)
        | .error e => h e : StateM (Client σ) (Except ε α)) c) = _
    cases x c with
    | mk r c =>
        cases r <;> rfl
  show IsProgram (tryCatchThe ε x h)
  rw [heq]
  exact hx.andThen hnext

theorem mapM {f : β → ExceptT ε (StateM (Client σ)) α}
    (hf : ∀ b, IsProgram (f b)) (items : List β) :
    IsProgram (items.mapM f) := by
  induction items with
  | nil =>
      rw [List.mapM_nil]
      exact .pure []
  | cons b rest ih =>
      rw [List.mapM_cons]
      exact (hf b).bind fun _ => ih.bind fun _ => .pure _

theorem forM {f : β → ExceptT ε (StateM (Client σ)) PUnit}
    (hf : ∀ b, IsProgram (f b)) (items : List β) :
    IsProgram (items.forM f) := by
  induction items with
  | nil =>
      exact .pure PUnit.unit
  | cons b rest ih =>
      exact (hf b).bind fun _ => ih

end Steps
end IsProgram

/-! # Calls -/

namespace Client

variable {σ α ε : Type}

def awaitReply (deadline limit : Nat) :
    Except ClientFault Nat → Client σ → Reply × Client σ
  | .error f, c => (.error f, c)
  | .ok id, c =>
    (c.waitUntil (fun c => (c.connection.reply? id).isSome) deadline).takeReply
      id limit

theorem isProgram_waitUntil (done : Client σ → Bool) (deadline : Nat) (a : α) :
    IsProgram fun c : Client σ => (a, c.waitUntil done deadline) := by
  refine ⟨.act (.await done deadline) fun _ => .done a, ?_⟩
  intro c
  rw [ClientProgram.perform, ClientEffect.perform]
  rfl

theorem isProgram_awaitReply (deadline limit : Nat)
    (started : Except ClientFault Nat) :
    IsProgram (awaitReply (σ := σ) deadline limit started) := by
  cases started with
  | error f =>
      exact .of_same fun _ => rfl
  | ok id =>
      have hawait := isProgram_waitUntil
        (fun c : Client σ => (c.connection.reply? id).isSome) deadline ()
      have htake : IsProgram (takeReply (σ := σ) id limit) :=
        .of_effect (.takeReply id limit)
      have hreply := hawait.andThen fun _ => htake
      dsimp only at hreply
      exact hreply

theorem callUntil_eq (deadline limit : Nat) (method : String) (params : Json)
    (c : Client σ) :
    c.callUntil deadline limit method params =
      awaitReply (min deadline (c.clock + limit)) limit
        (c.startCall method params).1 (c.startCall method params).2 := by
  unfold callUntil startCall
  split
  · next heq =>
      rw [heq]
      rfl
  · next heq =>
      rw [heq]
      rfl

section Calls

variable {method : String} (hmethod : method ∉ Request.fileMethods)
include hmethod

theorem isProgram_callUntil (deadline limit : Nat) (params : Json) :
    IsProgram fun c : Client σ => c.callUntil deadline limit method params := by
  have hstart := IsProgram.of_effect (.startCall (σ := σ) method params hmethod)
  have hcall (now : Nat) : IsProgram fun c : Client σ =>
      awaitReply (min deadline (now + limit)) limit
        (c.startCall method params).1 (c.startCall method params).2 :=
    hstart.andThen (isProgram_awaitReply (min deadline (now + limit)) limit)
  rw [funext (callUntil_eq deadline limit method params)]
  exact .look fun c => hcall c.clock

theorem isProgram_callWithin (limit : Nat) (params : Json) :
    IsProgram (callWithin limit method params : ClientM σ Json) := by
  have hcall (c : Client σ) :=
    isProgram_callUntil (σ := σ) hmethod (c.clock + limit) limit params
  have hlook := IsProgram.look hcall
  exact hlook

theorem isProgram_call (params : Json) :
    IsProgram (call method params : ClientM σ Json) := by
  have hcall (c : Client σ) :=
    isProgram_callWithin (σ := σ) hmethod c.config.requestTimeoutMs params
  have hlook := IsProgram.look hcall
  exact hlook

end Calls

theorem isProgram_request {α : Type} (r : Request α)
    (hmethod : r.method ∉ Request.fileMethods) (params : Json) :
    IsProgram (request r params : ClientM σ α) := by
  refine (isProgram_call hmethod params).bind fun answer => ?_
  cases r.decode? answer with
  | some a =>
      exact .pure a
  | none =>
      exact .throw _

theorem isProgram_notify {method : String}
    (hmethod : Mock.Server.isDocumentMethod method = false)
    (params : Json) : IsProgram (notify method params : ClientM σ Unit) :=
  .of_effect (.notify method params hmethod)

/-! # Questions about files -/

def askAbout (path : FilePath) (method : String)
    (params : Url → Client σ → Json) : ClientM σ Json := do
  let uri ← openFile path
  let c ← getThe (Client σ)
  call method (params uri c)

def finishCall (started : Except ClientFault Nat) (c : Client σ) :
    Reply × Client σ :=
  awaitReply (min (c.clock + c.config.requestTimeoutMs)
    (c.clock + c.config.requestTimeoutMs)) c.config.requestTimeoutMs started c

theorem call_eq (method : String) (params : Json) (c : Client σ) :
    call method params c =
      finishCall (c.startCall method params).1 (c.startCall method params).2 :=
  callUntil_eq _ _ method params c

theorem isProgram_finishCall (started : Except ClientFault Nat) :
    IsProgram (finishCall (σ := σ) started) := by
  have hreply (c : Client σ) := isProgram_awaitReply (σ := σ)
    (min (c.clock + c.config.requestTimeoutMs)
      (c.clock + c.config.requestTimeoutMs))
    c.config.requestTimeoutMs started
  have hlook := IsProgram.look hreply
  exact hlook

theorem isProgram_askAbout (path : FilePath) (method : String)
    {params : Url → Client σ → Json}
    (hparams : ∀ uri c, Message.documentOf (params uri c) = uri.text) :
    IsProgram (askAbout path method params) := by
  refine ⟨.ask path method params hparams fun started =>
    (isProgram_finishCall started).choose, ?_⟩
  have hfinish (started : Except ClientFault Nat) (c : Client σ) :=
    (isProgram_finishCall started).choose_spec c
  intro c
  have hquiet : c.disturbed (Noise.quiet 0) = c := rfl
  rw [askAbout, bind_apply, ClientProgram.perform, hquiet]
  cases openFile path c with
  | mk opened c =>
      cases opened with
      | error f =>
          exact hfinish (.error f) c
      | ok uri =>
          refine Eq.trans ?_ (hfinish (c.startCall method (params uri c)).1 _)
          exact call_eq method (params uri c) c

theorem documentOf_document (uri : Url) {members : Members}
    (h : ∀ m ∈ members, m.1 ≠ "textDocument") :
    Message.documentOf (Members.toJson (Members.document uri ++ members)) =
      uri.text := by
  have hothers : Json.lastMember? "textDocument"
      (members.filterMap fun m => m.2.map (m.1, ·)) = none := by
    apply Json.lastMember?_eq_none
    intro n hn
    obtain ⟨m, hm, heq⟩ := List.mem_filterMap.mp hn
    obtain ⟨v, -, rfl⟩ := Option.map_eq_some_iff.mp heq
    exact h m hm
  simp [Message.documentOf, Mock.Server.textAt, Members.toJson,
    Members.document, Json.ofOptions,
    Json.follow?_ofMembers, Json.lastMember?, hothers, Json.follow?_nil,
    Url.toJson, Json.str?]

def answerOf {α : Type} (r : Request α) (answer : Json) : ClientM σ α :=
  match r.decode? answer with
  | some a => pure a
  | none => throw (.undecodable r.method "the answer has another shape")

theorem isProgram_answerOf {α : Type} (r : Request α) (answer : Json) :
    IsProgram (answerOf r answer : ClientM σ α) := by
  unfold answerOf
  split
  · exact .pure _
  · exact .throw _

/-- A file is opened, and then asked about with the URL under which it is
open. -/
theorem askAbout_bind {α : Type} (path : FilePath) (r : Request α)
    (params : Url → Json) :
    (askAbout path r.method (fun uri _ => params uri) >>=
      answerOf r : ClientM σ α) = openFile path >>=
        fun uri => request r (params uri) := by
  funext c
  rw [bind_apply, bind_apply, askAbout, bind_apply]
  cases openFile path c with
  | mk opened c =>
      cases opened with
      | error f =>
          rfl
      | ok uri =>
          dsimp only
          rw [get_bind_apply, request, bind_apply]
          rfl

theorem isProgram_askPlace {α : Type} (r : Request α) (path : FilePath)
    (p : Position) {members : Members}
    (h : ∀ m ∈ members, m.1 ≠ "textDocument") :
    IsProgram (askPlace r path p members : ClientM σ α) := by
  have hparams (uri : Url) (_ : Client σ) :
      Message.documentOf (Members.toJson (Members.place uri p ++ members)) =
        uri.text := by
    rw [Members.place, List.append_assoc]
    apply documentOf_document
    intro m hm
    rcases List.mem_append.mp hm with hm | hm
    · rw [List.mem_singleton.mp hm]
      show "position" ≠ "textDocument"
      decide
    · exact h m hm
  rw [askPlace, ← askAbout_bind]
  exact (isProgram_askAbout path r.method hparams).bind (isProgram_answerOf r)

theorem isProgram_askPlace_nil {α : Type} (r : Request α) (path : FilePath)
    (p : Position) :
    IsProgram (askPlace r path p [] : ClientM σ α) :=
  isProgram_askPlace r path p fun _ hm => nomatch hm

theorem isProgram_askDocument {α : Type} (r : Request α) (path : FilePath) :
    IsProgram (askDocument r path : ClientM σ α) := by
  have hparams (uri : Url) (_ : Client σ) :
      Message.documentOf (Members.toJson (Members.document uri)) =
        uri.text := by
    rw [← List.append_nil (Members.document uri)]
    exact documentOf_document uri fun _ hm => nomatch hm
  rw [askDocument, ← askAbout_bind]
  exact (isProgram_askAbout path r.method hparams).bind (isProgram_answerOf r)

theorem isProgram_definition (path : FilePath) (p : Position) :
    IsProgram (definition path p : ClientM σ _) :=
  (isProgram_askPlace_nil Request.definition path p).bind fun _ => .pure _

theorem isProgram_references (path : FilePath) (p : Position)
    (includeDeclaration : Bool) :
    IsProgram (references path p includeDeclaration : ClientM σ _) := by
  refine (isProgram_askPlace Request.references path p ?_).bind fun _ => .pure _
  intro m hm
  rw [List.mem_singleton.mp hm]
  show "context" ≠ "textDocument"
  decide

theorem isProgram_hover (path : FilePath) (p : Position) :
    IsProgram (hover path p : ClientM σ _) :=
  isProgram_askPlace_nil Request.hover path p

theorem isProgram_prepareCallHierarchy (path : FilePath) (p : Position) :
    IsProgram (prepareCallHierarchy path p : ClientM σ _) :=
  (isProgram_askPlace_nil Request.prepareCallHierarchy path p).bind fun _ =>
    .pure _

theorem isProgram_completion (path : FilePath) (p : Position) :
    IsProgram (completion path p : ClientM σ _) :=
  isProgram_askPlace_nil Request.completion path p

theorem isProgram_signatureHelp (path : FilePath) (p : Position) :
    IsProgram (signatureHelp path p : ClientM σ _) :=
  isProgram_askPlace_nil Request.signatureHelp path p

theorem isProgram_rename (path : FilePath) (p : Position) (newName : String) :
    IsProgram (rename path p newName : ClientM σ _) := by
  refine isProgram_askPlace Request.rename path p ?_
  intro m hm
  rw [List.mem_singleton.mp hm]
  show "newName" ≠ "textDocument"
  decide

theorem isProgram_documentSymbols (path : FilePath) :
    IsProgram (documentSymbols path : ClientM σ _) :=
  isProgram_askDocument Request.documentSymbols path

theorem isProgram_codeLenses (path : FilePath) :
    IsProgram (codeLenses path : ClientM σ _) :=
  (isProgram_askDocument Request.codeLens path).bind fun _ => .pure _

theorem isProgram_codeActions (path : FilePath) (range : Range) :
    IsProgram (codeActions path range : ClientM σ _) := by
  have hparams (uri : Url) (c : Client σ) :
      Message.documentOf (codeActionParams uri range (c.store.get uri)) =
        uri.text := by
    apply documentOf_document
    intro m hm
    rcases List.mem_cons.mp hm with rfl | hm
    · show "range" ≠ "textDocument"
      decide
    · rw [List.mem_singleton.mp hm]
      show "context" ≠ "textDocument"
      decide
  have heq : (codeActions path range : ClientM σ _) =
      askAbout path "textDocument/codeAction"
        (fun uri c => codeActionParams uri range (c.store.get uri)) >>=
        fun answer => pure (CodeActionEntry.decodeAll answer) := by
    funext c
    rw [codeActions, bind_apply, bind_apply, askAbout, bind_apply]
    cases openFile path c with
    | mk opened c =>
        cases opened with
        | error f =>
            rfl
        | ok uri =>
            dsimp only
            rw [get_bind_apply, get_bind_apply, bind_apply]
  rw [heq]
  exact (isProgram_askAbout path "textDocument/codeAction" hparams).bind
    fun _ => .pure _

/-! # Other questions -/

theorem isProgram_workspaceSymbols (query : String) :
    IsProgram (workspaceSymbols query : ClientM σ _) :=
  isProgram_request Request.workspaceSymbols (by decide) _

theorem isProgram_calls (direction : CallDirection) (item : CallItem) :
    IsProgram (calls direction item : ClientM σ _) := by
  refine (isProgram_request (Request.calls direction) ?_ _).bind fun _ =>
    .pure _
  cases direction <;> decide

theorem isProgram_resolveCodeLens (lens : CodeLens) :
    IsProgram (resolveCodeLens lens : ClientM σ _) :=
  isProgram_request Request.resolveCodeLens (by decide) _

theorem isProgram_executeCommand (command : Command) :
    IsProgram (executeCommand command : ClientM σ _) :=
  isProgram_request Request.executeCommand (by decide) _

theorem isProgram_awaitReport (uri : Url) (limit : Nat) :
    IsProgram (awaitReport uri limit : ClientM σ Unit) := by
  have hawait (c : Client σ) :=
    isProgram_waitUntil (fun c : Client σ => c.store.hasReport uri)
    (c.clock + limit) (Except.ok () : Except ClientFault Unit)
  have hlook := IsProgram.look hawait
  exact hlook

/-! # Documents -/

theorem isProgram_openFile (path : FilePath) :
    IsProgram (openFile path : ClientM σ Url) :=
  .of_effect (.openFile path)

theorem isProgram_reopenFile (path : FilePath) :
    IsProgram (reopenFile path : ClientM σ Url) :=
  .of_effect (.reopenFile path)

theorem isProgram_changeFile (path : FilePath) (content : String) :
    IsProgram (changeFile path content : ClientM σ Nat) :=
  .of_effect (.changeFile path content)

theorem isProgram_closeFile (path : FilePath) :
    IsProgram (closeFile path : ClientM σ Unit) :=
  .of_effect (.closeFile path)

/-! # The life of a client -/

theorem isProgram_modify {f : Client σ → Client σ}
    (h : ∀ c, (f c).documents = c.documents) :
    IsProgram (modifyThe (Client σ) f : ClientM σ PUnit) :=
  .of_same h

theorem isProgram_markReady : IsProgram (markReady : ClientM σ Unit) := by
  refine IsProgram.get.bind fun c => ?_
  split
  · exact isProgram_modify fun _ => rfl
  · exact .throw _

theorem isProgram_handshake : IsProgram (handshake : ClientM σ Unit) := by
  refine IsProgram.get.bind fun c => ?_
  refine (IsProgram.liftExcept c.handshakeParams).bind fun params => ?_
  have hcall :
      IsProgram (callWithin c.config.initTimeoutMs "initialize" params :
        ClientM σ Json) :=
    isProgram_callWithin (by decide) _ params
  refine (hcall.tryCatch fun f => .throw _).bind fun result => ?_
  have hknown : IsProgram (modifyThe (Client σ) fun c =>
      { c with capabilities := .ofInitializeResult result } :
      ClientM σ PUnit) :=
    isProgram_modify fun _ => rfl
  refine hknown.bind fun _ => ?_
  have hconfirm :
      IsProgram (notify "initialized" Json.empty : ClientM σ Unit) :=
    isProgram_notify (by decide) _
  exact (hconfirm.tryCatch fun f => .throw _).bind fun _ => isProgram_markReady

theorem isProgram_askShutdown (deadline : Nat) :
    IsProgram fun c : Client σ => ((), c.askShutdown deadline) := by
  have hcall (limit : Nat) : IsProgram fun c : Client σ =>
      ((), (c.callUntil deadline limit "shutdown" .null).2) :=
    (isProgram_callUntil (by decide) deadline limit .null).map fun _ => ()
  exact .look fun c => hcall c.config.requestTimeoutMs

theorem isProgram_awaitExit (deadline : Nat) :
    IsProgram fun c : Client σ => ((), c.awaitExit deadline) := by
  have hexit : IsProgram (notify "exit" .null : ClientM σ Unit) :=
    isProgram_notify (by decide) _
  have hawait :=
    isProgram_waitUntil (fun c : Client σ => !c.peer.isRunning) deadline ()
  have hboth := hexit.andThen fun _ => hawait
  exact hboth

theorem isProgram_endGracefully (deadline : Nat) :
    IsProgram fun c : Client σ => ((), c.endGracefully deadline) := by
  have hfinal (now : Nat) : IsProgram fun c : Client σ =>
      ((), if now < deadline then c.awaitExit deadline else c) := by
    split
    · exact isProgram_awaitExit deadline
    · exact .of_same fun _ => rfl
  have hlook := IsProgram.look fun c : Client σ => hfinal c.clock
  have hcloses : IsProgram fun c : Client σ => ((), c.closeDocuments) :=
    .of_effect .closeDocuments
  have hall := hcloses.andThen fun _ =>
    (isProgram_askShutdown deadline).andThen fun _ => hlook
  exact hall

theorem isProgram_teardown :
    IsProgram (teardown : Client σ → CloseOutcome × Client σ) := by
  have hreap : IsProgram (reap : Client σ → CloseOutcome × Client σ) := by
    apply IsProgram.of_same
    intro c
    unfold reap
    split <;> rfl
  have hdisconnect (outcome : CloseOutcome) : IsProgram fun c : Client σ =>
      (outcome, c.onConnection Connection.close) :=
    (IsProgram.of_effect .disconnect).map fun _ => outcome
  have hend (deadline : Nat) :=
    (isProgram_endGracefully (σ := σ) deadline).andThen
    fun _ => hreap.andThen hdisconnect
  have hlook :=
    IsProgram.look fun c : Client σ => hend (c.clock + c.config.shutdownGraceMs)
  exact hlook

/-- What the first to close a client does, once he has begun its end. -/
def closeDown (c : Client σ) : CloseOutcome × Client σ :=
  let (outcome, c) := c.teardown
  ((c.markClosed.announce outcome).closeOutcome, c.markClosed.announce outcome)

theorem isProgram_closeDown :
    IsProgram (closeDown : Client σ → CloseOutcome × Client σ) := by
  have hannounce (outcome : CloseOutcome) : IsProgram fun c : Client σ =>
      ((c.markClosed.announce outcome).closeOutcome,
        c.markClosed.announce outcome) :=
    .of_same fun _ => rfl
  have hall := isProgram_teardown.andThen hannounce
  exact hall

theorem isProgram_close :
    IsProgram (close : Client σ → CloseOutcome × Client σ) := by
  have hclose (begun : Option LifecycleState) : IsProgram fun c : Client σ =>
      begun.elim (c.closeOutcome, c) fun state =>
        closeDown { c with state := state } := by
    cases begun with
    | none =>
        exact .of_same fun _ => rfl
    | some state =>
        have hbegin :
            IsProgram fun c : Client σ => ((), { c with state := state }) :=
          .of_same fun _ => rfl
        exact hbegin.andThen fun _ => isProgram_closeDown
  have heq : (close : Client σ → CloseOutcome × Client σ) = fun c =>
      c.state.beginClose.elim (c.closeOutcome, c) fun state =>
        closeDown { c with state := state } := by
    funext c
    rw [close, beginClose?]
    cases c.state.beginClose <;> rfl
  rw [heq]
  exact .look fun c => hclose c.state.beginClose

end Client
end CodeIntel
