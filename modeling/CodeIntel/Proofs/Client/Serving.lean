import CodeIntel.Proofs.Client.Openable
import CodeIntel.Proofs.Mock.Answering

/-!
# A server that answers at once

The simplest servers answer each request as soon as it arrives, by its method
and its parameters alone. A client of such a server is told what the server
answers, and afterwards nothing is under way: so it is told the same whenever it
asks the same.
-/

namespace CodeIntel

/-! # The process -/

def Request.read {α : Type} (r : Request α) : Outcome → Except ClientFault α
  | .ok value =>
    match r.decode? value with
    | some a => .ok a
    | none => .error (.undecodable r.method "the answer has another shape")
  | .error e => .error (.server e)

/-- A process that answers each request at once, and says nothing else. -/
def Peer.answering (answer : String → Json → Outcome) : Peer Unit where
  state := ()
  react now frame _ :=
    match Incoming.classify frame with
    | .request id method params =>
      ([(now, .send (Message.reply id (answer method params)).toJson)], ())
    | _ => ([], ())

def Message.IsNotification : Message → Prop
  | .notification _ _ => True
  | _ => False

namespace Peer

variable {answer : String → Json → Outcome}

theorem receive_notification {m : Message} (hm : m.IsNotification) (now : Nat) :
    (answering answer).receive now m.toJson = answering answer := by
  cases m with
  | notification method params =>
      simp only [receive, isRunning, answering, Option.isNone_none, if_true,
        Message.classify_notification, List.append_nil]
  | request | success | failure | value =>
      exact hm.elim

theorem receive_notifications {messages : List Message}
    (h : ∀ m ∈ messages, m.IsNotification) (now : Nat) :
    messages.foldl (fun p m => p.receive now m.toJson) (answering answer) =
      answering answer := by
  induction messages with
  | nil =>
      rfl
  | cons m rest ih =>
      rcases List.forall_mem_cons.mp h with ⟨hm, hrest⟩
      rw [List.foldl_cons, receive_notification hm, ih hrest]

theorem receive_request (now id : Nat) (method : String) (params : Json) :
    (answering answer).receive now (Message.request id method params).toJson =
      { answering answer with
        agenda :=
  [(now,
    .send (Message.reply (.ofNat id) (answer method params)).toJson)] } := by
  simp only [receive, isRunning, answering, Option.isNone_none, if_true,
    Message.classify_request, List.nil_append]

end Peer

namespace Client

variable {answer : String → Json → Outcome} {c : Client Unit}

/-- Nothing is under way between a client and a server that answers at once, but
for notifications. -/
structure IsServed (answer : String → Json → Outcome) (c : Client Unit) :
    Prop where
  live : c.IsLive
  peer : c.peer = Peer.answering answer
  pending : c.connection.pending = []
  replies : c.connection.replies = []
  delivered : c.delivered ≤ c.connection.wire.length
  quiet : ∀ m ∈ c.connection.wire.drop c.delivered, m.IsNotification

/-! # One call -/

def calling (c : Client Unit) (method : String) (params : Json) : Client Unit :=
  c.onConnection fun k => { k with
    nextCall := k.nextCall + 1
    pending := [k.nextCall]
    wire := k.wire ++ [k.nextRequest method params] }

def answered (c : Client Unit) (answer : String → Json → Outcome)
    (method : String) (params : Json) : Client Unit :=
  let c := c.onConnection fun k => { k with
    nextCall := k.nextCall + 1
    pending := []
    replies := [(k.nextCall, (answer method params).mapError .server)]
    wire := k.wire ++ [k.nextRequest method params] }
  { c with peer := .answering answer, delivered := c.connection.wire.length }

def called (c : Client Unit) (answer : String → Json → Outcome)
    (method : String) (params : Json) : Client Unit :=
  (c.answered answer method params).onConnection fun k =>
    { k with replies := [] }

theorem dispatch_reply {k : Connection} {call : Nat}
    (hpending : k.pending = [call]) (hreplies : k.replies = [])
    {outcome : Outcome} (hreadable : Message.IsReadable outcome) :
    k.dispatch
        (Message.reply (.ofNat (Connection.number call)) outcome).toJson =
      { k with
        pending := [], replies := [(call, outcome.mapError .server)] } := by
  rw [Connection.dispatch_response (Message.classify_reply hreadable _)]
  rcases Connection.complete_cases k (Connection.number call) outcome with
    ⟨other, hother, -, heq⟩ | ⟨hnone, -⟩
  · rw [hpending, List.mem_singleton] at hother
    rw [heq, hpending, hreplies, hother]
    simp
  · exact absurd rfl (hnone call (hpending ▸ List.mem_singleton_self call))

theorem onConnection_congr {change other : Connection → Connection}
    (h : change c.connection = other c.connection) :
    c.onConnection change = c.onConnection other := by
  rw [onConnection, h, onConnection]

theorem performDue_reply {outcome : Outcome}
    (hreadable : Message.IsReadable outcome) {time call : Nat}
    (hagenda : c.peer.agenda =
      [(time, .send
        (Message.reply (.ofNat (Connection.number call)) outcome).toJson)])
    (hdue : time ≤ c.clock) (hopen : c.connection.closed = false)
    (hpending : c.connection.pending = [call])
    (hreplies : c.connection.replies = []) :
    c.performDue 1 =
      { c with peer := { c.peer with agenda := [] } }.onConnection fun k =>
      { k with
        pending := [], replies := [(call, outcome.mapError .server)] } := by
  have htaken : c.peer.due? c.clock =
      some (.send (Message.reply (.ofNat (Connection.number call))
        outcome).toJson, { c.peer with agenda := [] }) := by
    rw [Peer.due?, hagenda]
    exact if_pos hdue
  have hconnected :
      isConnected { c with peer := { c.peer with agenda := [] } } = true := by
    show (!c.connection.closed) = true
    rw [hopen]
    rfl
  rw [performDue, htaken]
  dsimp only
  rw [performDue, perform, if_pos hconnected, dispatch,
    Message.classify_reply hreadable]
  apply onConnection_congr
  exact dispatch_reply hpending hreplies hreadable

theorem settleWith_of_delivered (rounds : Nat) (hagenda : c.peer.agenda = [])
    (h : c.delivered = c.connection.wire.length) : c.settleWith rounds = c := by
  cases rounds with
  | zero =>
      rfl
  | succ rounds =>
      have hdeliver : c.deliver = c := by
        rw [deliver, h, List.drop_length, List.foldl_nil, ← h]
      rw [settleWith, hdeliver, hagenda, List.length_nil, performDue, if_pos h]

theorem reply?_answered (method : String) (params : Json) :
    (c.answered answer method params).connection.reply? c.connection.nextCall =
      some ((answer method params).mapError .server) := by
  simp [answered, onConnection, connection, Connection.reply?]

theorem takeReply_answered (method : String) (params : Json) (limit : Nat) :
    (c.answered answer method params).takeReply c.connection.nextCall limit =
      ((answer method params).mapError .server,
        c.called answer method params) := by
  have hrelease :
      (c.answered answer method params).connection.release
        c.connection.nextCall =
      (c.called answer method params).connection := by
    rw [Connection.release_eq]
    simp [answered, called, onConnection, connection]
  rw [takeReply, reply?_answered, Option.getD_some]
  exact congrArg (Prod.mk _) (onConnection_congr hrelease)

namespace IsServed

theorem startCall (h : c.IsServed answer) (method : String) (params : Json) :
    c.connection.startCall method params =
      (.ok c.connection.nextCall, (c.calling method params).connection) := by
  rcases Connection.startCall_cases c.connection method params with
    ⟨-, -, heq⟩ | ⟨-, hbroken, -⟩ | ⟨hclosed, -⟩
  · rw [heq, Connection.entered, Connection.enter_of_unused]
    · rw [Connection.allot, h.pending]
      rfl
    · intro other hother
      rw [Connection.allot, h.pending] at hother
      exact absurd hother List.not_mem_nil
  · exact absurd (h.live.2.symm.trans hbroken) Bool.false_ne_true
  · exact absurd (h.live.1.symm.trans hclosed) Bool.false_ne_true

theorem deliver_calling (h : c.IsServed answer) (method : String)
    (params : Json) :
    (c.calling method params).deliver =
      { c.calling method params with
        peer := (Peer.answering answer).receive c.clock
          (c.connection.nextRequest method params).toJson
        delivered := (c.calling method params).connection.wire.length } := by
  have hundelivered : (c.calling method params).connection.wire.drop
      (c.calling method params).delivered =
        c.connection.wire.drop c.delivered ++
          [c.connection.nextRequest method params] :=
    List.drop_append_of_le_length h.delivered
  have hpeer : (c.calling method params).peer = Peer.answering answer := h.peer
  rw [deliver, hundelivered, hpeer, List.foldl_append,
    Peer.receive_notifications h.quiet]
  rfl

theorem settle_calling (h : c.IsServed answer)
    (hreadable : ∀ method params, Message.IsReadable (answer method params))
    (method : String) (params : Json) :
    (c.calling method params).settle = c.answered answer method params := by
  have hagenda : (c.calling method params).deliver.peer.agenda =
      [(c.clock, .send (Message.reply
      (.ofNat (Connection.number c.connection.nextCall))
      (answer method params)).toJson)] := by
    rw [h.deliver_calling, Connection.nextRequest, Peer.receive_request]
  have hround : (c.calling method params).deliver.performDue 1 =
      c.answered answer method params := by
    rw [performDue_reply (hreadable method params) hagenda (Nat.le_refl _)
      h.live.1 rfl h.replies, h.deliver_calling, Connection.nextRequest,
      Peer.receive_request, answered]
    rfl
  show (c.calling method params).settleWith (999 + 1) = _
  rw [settleWith, hagenda, List.length_singleton, hround, if_pos]
  rfl

theorem waitUntil_calling (h : c.IsServed answer)
    (hreadable : ∀ method params, Message.IsReadable (answer method params))
    (method : String) (params : Json) (deadline : Nat) :
    (c.calling method params).waitUntil
      (fun later => (later.connection.reply? c.connection.nextCall).isSome)
      deadline =
        c.answered answer method params := by
  have hsettled : (c.answered answer method params).settle =
      c.answered answer method params :=
    settleWith_of_delivered maxRounds rfl rfl
  rw [waitUntil, h.settle_calling hreadable]
  show (c.answered answer method params).waitWith _ deadline (999 + 1) = _
  rw [waitWith, hsettled, if_pos]
  rw [reply?_answered]
  rfl

/-- A call is told what the server answers. -/
theorem call_apply (h : c.IsServed answer)
    (hreadable : ∀ method params, Message.IsReadable (answer method params))
    (method : String) (params : Json) : call method params c =
      ((answer method params).mapError .server,
        c.called answer method params) := by
  rw [call, callWithin, callUntil, h.startCall]
  dsimp only
  have hcalling :
      (c.onConnection fun _ => (c.calling method params).connection) =
      c.calling method params := rfl
  rw [hcalling, h.waitUntil_calling hreadable, takeReply_answered]

theorem called (h : c.IsServed answer) (method : String) (params : Json) :
    (c.called answer method params).IsServed answer := by
  refine ⟨h.live, rfl, rfl, rfl, Nat.le_refl _, ?_⟩
  intro m hm
  have hnone : (c.called answer method params).connection.wire.drop
      (c.called answer method params).delivered = [] := List.drop_length
  rw [hnone] at hm
  exact nomatch hm

end IsServed

/-! # The same answers again -/

/-- The client still has the server that answers at once, and opens the same
files. -/
structure ServesAlike (answer : String → Json → Outcome) (c c' : Client Unit) :
    Prop where
  served : c'.IsServed answer
  opens : ∀ path, (openFile path c').1 = (openFile path c).1

namespace ServesAlike

theorem refl (h : c.IsServed answer) : ServesAlike answer c c :=
  ⟨h, fun _ => rfl⟩

theorem trans {a b : Client Unit} (hab : ServesAlike answer a b)
    (hbc : ServesAlike answer b c) :
    ServesAlike answer a c :=
  ⟨hbc.served, fun path => (hbc.opens path).trans (hab.opens path)⟩

theorem canOpen_eq {c' : Client Unit} (h : ServesAlike answer c c')
    (path : FilePath) :
    c'.canOpen path = c.canOpen path := by
  rw [canOpen, h.opens, canOpen]

end ServesAlike

theorem IsServed.called_alike (h : c.IsServed answer) (method : String)
    (params : Json) :
    ServesAlike answer c (c.called answer method params) := by
  refine ⟨h.called method params, ?_⟩
  intro path
  exact Documents.openFile_congr_of_live h.live h.live rfl

theorem IsServed.withOpened (h : c.IsServed answer) (r : FilePath)
    (d : OpenDocument) :
    (c.withOpened r d).IsServed answer := by
  refine ⟨h.live, h.peer, h.pending, h.replies, ?_, ?_⟩
  · exact h.delivered.trans (List.length_append ▸ Nat.le_add_right _ _)
  · have hundelivered :
        (c.withOpened r d).connection.wire.drop (c.withOpened r d).delivered =
        c.connection.wire.drop c.delivered ++ [.notification _ _] :=
      List.drop_append_of_le_length h.delivered
    rw [hundelivered]
    exact List.forall_mem_append.mpr ⟨h.quiet,
      List.forall_mem_singleton.mpr trivial⟩

def Spares (answer : String → Json → Outcome) {α : Type}
    (step : ClientM Unit α) : Prop :=
  ∀ c : Client Unit, c.IsServed answer → ServesAlike answer c (step c).2

section Steps

variable {α β : Type}

theorem spares_pure (a : α) : Spares answer (pure a) :=
  fun _ => .refl

theorem spares_throw (f : ClientFault) :
    Spares answer (throw f : ClientM Unit α) :=
  fun _ => .refl

theorem spares_get : Spares answer (getThe (Client Unit)) :=
  fun _ => .refl

theorem Spares.bind {step : ClientM Unit α} {next : α → ClientM Unit β}
    (hstep : Spares answer step) (hnext : ∀ a, Spares answer (next a)) :
    Spares answer (step >>= next) := by
  intro c h
  have halike := hstep c h
  rw [bind_apply]
  cases heq : step c with
  | mk r after =>
      rw [heq] at halike
      cases r with
      | ok a =>
          exact halike.trans (hnext a after halike.served)
      | error f =>
          exact halike

theorem spares_openFile (path : FilePath) : Spares answer (openFile path) := by
  intro c h
  rcases Documents.openFile_cases c.disk path c.documents with
    ⟨r, d, -, -, heq⟩ | ⟨r, d, hreal, hnone, hload, -, -⟩ |
    ⟨f, connection, heq, -⟩
  · rw [openFile_apply, heq]
    exact .refl h
  · have hopened := openFile_eq_withOpened h.live hreal hnone hload
    rw [hopened]
    exact ⟨h.withOpened r d, openFile_after hopened⟩
  · have hsame := Documents.openFile_error_of_live h.live heq
    rw [openFile_apply, heq, hsame]
    exact .refl h

end Steps

/-! # Questions -/

def askFor {σ α β : Type} (r : Request α) (members : Members) (view : α → β)
    (path : FilePath) (p : Position) : ClientM σ β := do
  let found ← askPlace r path p members
  pure (view found)

theorem definition_eq_askFor {σ : Type} :
    (definition : FilePath → Position → ClientM σ (List Location)) =
      askFor Request.definition [] Definition.locations := rfl

section Questions

variable {α β : Type}
  (hreadable : ∀ method params, Message.IsReadable (answer method params))
include hreadable

theorem IsServed.request_apply (h : c.IsServed answer) (r : Request α)
    (params : Json) :
    request r params c =
      (r.read (answer r.method params), c.called answer r.method params) := by
  rw [request, bind_apply, h.call_apply hreadable]
  cases answer r.method params with
  | ok value =>
      show (match r.decode? value with
        | some a => pure a
        | none => throw _ : ClientM Unit α) _ = _
      rw [Request.read]
      cases r.decode? value <;> rfl
  | error e =>
      rfl

theorem spares_request (r : Request α) (params : Json) :
    Spares answer (request r params) := by
  intro c h
  rw [h.request_apply hreadable]
  exact h.called_alike r.method params

theorem spares_askDocument (r : Request α) (path : FilePath) :
    Spares answer (askDocument r path) :=
  (spares_openFile path).bind fun _ => spares_request hreadable r _

theorem spares_askPlace (r : Request α) (path : FilePath) (p : Position)
    (members : Members) :
    Spares answer (askPlace r path p members) :=
  (spares_openFile path).bind fun _ => spares_request hreadable r _

theorem spares_askFor (r : Request α) (members : Members) (view : α → β)
    (path : FilePath) (p : Position) :
    Spares answer (askFor r members view path p) :=
  (spares_askPlace hreadable r path p members).bind fun _ => spares_pure _

theorem IsServed.askFor_fst (h : c.IsServed answer) (r : Request α)
    (members : Members) (view : α → β) (path : FilePath) (p : Position) :
    (askFor r members view path p c).1 =
      ((openFile path c).1.bind fun uri =>
        r.read (answer r.method
          (Members.toJson (Members.place uri p ++ members)))).map view := by
  have hopened := (spares_openFile path c h).served
  rw [askFor, bind_apply, askPlace, bind_apply]
  cases hopen : openFile path c with
  | mk result opened =>
      rw [hopen] at hopened
      cases result with
      | error f =>
          rfl
      | ok uri =>
          dsimp only
          rw [hopened.request_apply hreadable]
          dsimp only [Except.bind]
          cases r.read (answer r.method
            (Members.toJson (Members.place uri p ++ members))) <;> rfl

end Questions

/-! # Consistent answers -/

section Consistent

variable {σ α β : Type}

def asked (ask : FilePath → Position → ClientM σ α)
    (places : List (FilePath × Position)) (c : Client σ) : Client σ :=
  places.foldl (fun c place => (ask place.1 place.2 c).2) c

/-- Whatever the client asks about, it is told the same about each place
afterwards. -/
def Consistent (ask : FilePath → Position → ClientM σ α) (c : Client σ) :
    Prop :=
  ∀ places path p, (ask path p (asked ask places c)).1.toOption =
    (ask path p c).1.toOption

theorem Consistent.next {ask : FilePath → Position → ClientM σ α} {c : Client σ}
    (h : Consistent ask c) (path : FilePath) (p : Position) :
    Consistent ask (ask path p c).2 := by
  intro places q r
  have hlater := h ((path, p) :: places) q r
  have hfirst := h [(path, p)] q r
  exact hlater.trans hfirst.symm

theorem asked_alike {ask : FilePath → Position → ClientM Unit α}
    {c : Client Unit} (h : c.IsServed answer)
    (hask : ∀ path p, Spares answer (ask path p))
    (places : List (FilePath × Position)) :
    ServesAlike answer c (asked ask places c) := by
  induction places generalizing c with
  | nil =>
      exact .refl h
  | cons place rest ih =>
      have halike := hask place.1 place.2 c h
      exact halike.trans (ih halike.served)

/-- A server that answers at once is consistent. -/
theorem IsServed.consistent {c : Client Unit} (h : c.IsServed answer)
    (hreadable : ∀ method params, Message.IsReadable (answer method params))
    (r : Request α) (members : Members) (view : α → β) :
    Consistent (askFor r members view) c := by
  intro places path p
  have halike := asked_alike h (spares_askFor hreadable r members view) places
  rw [h.askFor_fst hreadable, halike.served.askFor_fst hreadable,
    halike.opens path]

end Consistent
end Client
end CodeIntel
