import CodeIntel.Mock.Server
import CodeIntel.Proofs.Connection.Dispatching
import CodeIntel.Proofs.Connection.FirstAnswer
import CodeIntel.Proofs.Message.Prefix

/-!
# What the scripted server answers

A request that does not end the server is answered once, under its own id and as
the last thing that the server writes about it; whatever the server writes
before that, or about a notification or a response, answers nothing. `Answers`
says what a server answers a request in the state in which it is.
-/

namespace CodeIntel

namespace Message

def answeredId? : Message → Option Json
  | .success id _ | .failure id _ => some id
  | _ => none

def IsAside : Message → Prop
  | .request _ _ _ | .notification _ _ => True
  | _ => False

theorem IsAside.answeredId?_eq_none {m : Message} (h : m.IsAside) :
    m.answeredId? = none := by
  cases m with
  | request | notification | value => rfl
  | success | failure => exact h.elim

theorem IsAside.not_response {m : Message} (h : m.IsAside) (n : Nat)
    (outcome : Outcome) :
    Incoming.classify m.toJson ≠ .response n outcome := by
  cases m with
  | request id method params =>
      rw [classify_request]
      exact nofun
  | notification method params =>
      rw [classify_notification]
      exact nofun
  | success | failure | value =>
      exact h.elim

def reply (id : Json) : Outcome → Message
  | .ok result => .success id result
  | .error e => .failure id e

theorem answeredId?_reply (id : Json) (outcome : Outcome) :
    (reply id outcome).answeredId? = some id := by
  cases outcome <;> rfl

theorem reply_inj {id : Json} {outcome other : Outcome}
    (h : reply id outcome = reply id other) :
    outcome = other := by
  cases outcome with
  | ok result =>
      cases other with
      | ok => rw [(Message.success.inj h).2]
      | error => cases h
  | error e =>
      cases other with
      | ok => cases h
      | error => rw [(Message.failure.inj h).2]

def IsReadable (outcome : Outcome) : Prop :=
  ∀ e, outcome = .error e → ResponseError.decode? e.toJson = some e

theorem isReadable_ok (result : Json) : IsReadable (.ok result) := by
  rintro e ⟨⟩

theorem classify_reply {outcome : Outcome} (h : IsReadable outcome) (n : Nat) :
    Incoming.classify (reply (.ofNat n) outcome).toJson =
      .response n outcome := by
  cases outcome with
  | ok result =>
      exact classify_success n result
  | error e =>
      exact classify_failure n (h e rfl)

theorem method?_request (n : Nat) (method : String) (params : Json) :
    ((request n method params).toJson.get? "method").bind Json.str? =
      some method := by
  rw [get?_toJson (by intro v h; cases h)]
  simp [members, Json.lastMember?, Json.lastMember?_unless_null_of_ne,
    Json.str?]

theorem classify_of_answeredId? {m : Message} {id : Json}
    (h : m.answeredId? = some id) :
    (∃ n outcome, Incoming.classify m.toJson = .response n outcome) ∨
      ∃ reason, Incoming.classify m.toJson = .invalid reason := by
  apply Incoming.classify_of_no_method
  cases m with
  | success id result =>
      rw [Incoming.method?, Connection.get?_success]
      simp [Json.lastMember?]
  | failure id error =>
      rw [Incoming.method?, Connection.get?_failure]
      simp [Json.lastMember?]
  | request | notification | value =>
      cases h

end Message

namespace Mock

/-- Whether the server ends without an answer when it is asked for a method: it
was told to, or the text that it was given as its capabilities is none. -/
def Behaviour.exitsOn (b : Behaviour) (method : String) : Bool :=
  method = "mockls/crash" ||
    (method = "initialize" && (Server.capabilities? b).isNone)

namespace Server

open Message (answeredId? reply IsReadable isReadable_ok)

/-! # Messages behind one another -/

/-- A server has written some messages. It goes on, and behaves as before. -/
structure Wrote (s s' : Server) (sent : List Message) : Prop where
  written : s'.written = s.written ++ sent
  behaviour : s'.behaviour = s.behaviour
  exitCode : s'.exitCode = s.exitCode

namespace Wrote

variable {s s₁ s' : Server} {sent more : List Message}

theorem refl (s : Server) : Wrote s s [] :=
  ⟨(List.append_nil _).symm, rfl, rfl⟩

theorem trans (h : Wrote s s₁ sent) (h' : Wrote s₁ s' more) :
    Wrote s s' (sent ++ more) := by
  constructor
  · rw [h'.written, h.written, List.append_assoc]
  · rw [h'.behaviour, h.behaviour]
  · rw [h'.exitCode, h.exitCode]

theorem write (s : Server) (m : Message) : Wrote s (s.write m) [m] :=
  ⟨rfl, rfl, rfl⟩

end Wrote

/-- A server has written nothing but requests and notifications of its own. -/
def Remarks (s s' : Server) : Prop :=
  ∃ asides, (∀ m ∈ asides, m.IsAside) ∧ Wrote s s' asides

namespace Remarks

variable {s s₁ s' : Server}

theorem of_frame (hwritten : s'.written = s.written)
    (hbehaviour : s'.behaviour = s.behaviour)
    (hexit : s'.exitCode = s.exitCode) : Remarks s s' :=
  ⟨[], fun _ hm => (nomatch hm), by rw [hwritten, List.append_nil],
    hbehaviour, hexit⟩

theorem refl (s : Server) : Remarks s s :=
  of_frame rfl rfl rfl

theorem trans (h : Remarks s s₁) (h' : Remarks s₁ s') : Remarks s s' := by
  obtain ⟨asides, hasides, hwrote⟩ := h
  obtain ⟨more, hmore, hwrote'⟩ := h'
  exact ⟨asides ++ more, List.forall_mem_append.mpr ⟨hasides, hmore⟩,
    hwrote.trans hwrote'⟩

theorem write {m : Message} (hm : m.IsAside) (s : Server) :
    Remarks s (s.write m) :=
  ⟨[m], fun m' hm' => by rwa [List.mem_singleton.mp hm'], Wrote.write s m⟩

theorem notify (s : Server) (method : String) (params : Json) :
    Remarks s (s.notify method params) := by
  apply write
  trivial

theorem request (s : Server) (method : String) (params : Json) :
    Remarks s (s.request method params) :=
  ⟨[.request s.nextId method params],
    fun m hm => by rw [List.mem_singleton.mp hm]; trivial, rfl, rfl, rfl⟩

theorem tick (s : Server) (count : Nat) : Remarks s (s.tick count) := by
  unfold Server.tick
  induction List.range count generalizing s with
  | nil =>
      exact refl s
  | cons n rest ih =>
      exact (notify s _ _).trans (ih _)

theorem notePosition (s : Server) (params : Json) :
    Remarks s (s.notePosition params) := by
  unfold Server.notePosition
  split
  · exact of_frame rfl rfl rfl
  · exact refl s

theorem publish (s : Server) (uri : String) : Remarks s (s.publish uri) := by
  unfold Server.publish
  split
  · exact notify s _ _
  · exact refl s

theorem setDocument (s : Server) (uri : String) (d : Document) :
    Remarks s (s.setDocument uri d) :=
  of_frame rfl rfl rfl

theorem changeDocument (s : Server) (uri : String)
    (change : Document → Document) :
    Remarks s (s.changeDocument uri change) := by
  unfold Server.changeDocument
  split
  · exact setDocument s _ _
  · exact refl s

theorem noteInitialized (s : Server) : Remarks s s.noteInitialized := by
  unfold Server.noteInitialized
  extract_lets ready
  have hready : Remarks s ready := notify s _ _
  refine hready.trans ?_
  split
  · exact ((request _ _ _).trans (request _ _ _)).trans (request _ _ _)
  · exact refl _

theorem noteOpen (s : Server) (params : Json) :
    Remarks s (s.noteOpen params) := by
  unfold Server.noteOpen
  exact (setDocument s _ _).trans (publish _ _)

theorem noteChange (s : Server) (params : Json) :
    Remarks s (s.noteChange params) := by
  unfold Server.noteChange
  exact (changeDocument s _ _).trans (publish _ _)

theorem handleNotification {method : String} (hexit : method ≠ "exit")
    (s : Server) (params : Json) :
    Remarks s (s.handleNotification method params) := by
  unfold Server.handleNotification
  split
  · exact noteInitialized s
  · exact noteOpen s params
  · exact noteChange s params
  · exact changeDocument _ _ _
  · exact absurd rfl hexit
  · exact refl s

theorem noteMethod (s : Server) (frame : Json) :
    Remarks s (s.noteMethod frame) := by
  unfold Server.noteMethod
  split
  · exact of_frame rfl rfl rfl
  · exact refl s

end Remarks

/-! # One answer -/

/-- Whatever id an answer is to have, a server writes it behind the same
requests and notifications. -/
def Concludes (s : Server) (handle : Json → Server) (outcome : Outcome) :
    Prop :=
  ∃ asides, (∀ m ∈ asides, m.IsAside) ∧
    ∀ id, Wrote s (handle id) (asides ++ [reply id outcome])

theorem Concludes.of_remarks {s s₁ : Server} {handle : Json → Server}
    {outcome : Outcome} (h : Remarks s s₁)
    (hhandle : Concludes s₁ handle outcome) : Concludes s handle outcome := by
  obtain ⟨asides, hasides, hwrote⟩ := h
  obtain ⟨more, hmore, hwrote'⟩ := hhandle
  refine ⟨asides ++ more, List.forall_mem_append.mpr ⟨hasides, hmore⟩,
    fun id => ?_⟩
  rw [List.append_assoc]
  exact hwrote.trans (hwrote' id)

theorem concludes_write (s : Server) (outcome : Outcome) :
    Concludes s (fun id => s.write (reply id outcome)) outcome :=
  ⟨[], fun _ hm => (nomatch hm), fun id => Wrote.write s (reply id outcome)⟩

theorem concludes_succeed (s : Server) (result : Json) :
    Concludes s (fun id => s.succeed id result) (.ok result) :=
  concludes_write s (.ok result)

theorem concludes_fail (s : Server) (code : Int) (message : String) :
    Concludes s (fun id =>
      s.fail id code message) (.error ⟨code, message, none⟩) :=
  concludes_write s (.error ⟨code, message, none⟩)

/-- A server writes one answer, whatever the id of the request is, and the
answer can be read. -/
def Settles (s : Server) (handle : Json → Server) : Prop :=
  ∃ outcome, IsReadable outcome ∧ Concludes s handle outcome

theorem settles_succeed (s : Server) (result : Json) :
    Settles s fun id => s.succeed id result :=
  ⟨_, isReadable_ok result, concludes_succeed s result⟩

theorem Settles.of_remarks {s s₁ : Server} {handle : Json → Server}
    (h : Remarks s s₁) (hhandle : Settles s₁ handle) : Settles s handle := by
  obtain ⟨outcome, hreadable, hconcludes⟩ := hhandle
  exact ⟨outcome, hreadable, hconcludes.of_remarks h⟩

theorem settles_methodNotFound (s : Server) (message : String) :
    Settles s fun id => s.fail id (-32601) message := by
  refine ⟨_, ?_, concludes_fail s _ _⟩
  rintro e ⟨⟩
  exact BuiltMessage.decode?_error (-32601) message

theorem settles_internalError (s : Server) (message : String) :
    Settles s fun id => s.fail id (-32603) message := by
  refine ⟨_, ?_, concludes_fail s _ _⟩
  rintro e ⟨⟩
  exact BuiltMessage.decode?_error (-32603) message

/-! ## Each method -/

section Methods

variable (s : Server) {method : String} (params : Json)

/-- Before its answer the server counts. -/
theorem settles_notify :
    Settles s fun id => s.answerOwn id "mockls/notify" params :=
  (settles_succeed _ _).of_remarks (Remarks.tick s _)

theorem settles_answerOwn (hcrash : method ≠ "mockls/crash") :
    Settles s fun id => s.answerOwn id method params := by
  by_cases hstate : method = "mockls/documentState"
  · subst hstate
    exact settles_succeed s _
  by_cases hposition : method = "mockls/lastPosition"
  · subst hposition
    exact settles_succeed s _
  by_cases hnotify : method = "mockls/notify"
  · subst hnotify
    exact settles_notify s params
  by_cases hreplies : method = "mockls/replies"
  · subst hreplies
    exact settles_succeed s _
  by_cases hecho : method = "mockls/echo"
  · subst hecho
    exact settles_succeed s params
  have hunknown : (fun id => s.answerOwn id method params) =
      fun id => s.fail id (-32601) s!"unknown mockls method {method}" := by
    funext id
    simp only [answerOwn]
  rw [hunknown]
  exact settles_methodNotFound s _

theorem settles_initialize
    (hcapabilities : (capabilities? s.behaviour).isSome = true) :
    Settles s fun id => s.answerInitialize id := by
  obtain ⟨capabilities, heq⟩ := Option.isSome_iff_exists.mp hcapabilities
  unfold answerInitialize
  rw [heq]
  exact settles_succeed s _

theorem answer_eq_answerOwn (id : Json) (hfirst : method ≠ "initialize")
    (hshutdown : method ≠ "shutdown") (hresolve : method ≠ "codeLens/resolve")
    (hexecute : method ≠ "workspace/executeCommand")
    (hown : method.startsWith "mockls/" = true) :
    s.answer id method params = s.answerOwn id method params := by
  simp only [answer, if_pos hown]

theorem settles_answer (hlasts : s.behaviour.exitsOn method = false) :
    Settles s fun id => s.answer id method params := by
  simp only [Behaviour.exitsOn, Bool.or_eq_false_iff, Bool.and_eq_false_imp,
    decide_eq_false_iff_not, decide_eq_true_eq,
    Option.isNone_eq_false_iff] at hlasts
  obtain ⟨hcrash, hcapabilities⟩ := hlasts
  -- the outcome is chosen before the id is known, so that the methods are told
  -- apart first
  by_cases hfirst : method = "initialize"
  · subst hfirst
    exact settles_initialize s (hcapabilities rfl)
  by_cases hshutdown : method = "shutdown"
  · subst hshutdown
    have hshut : Remarks s { s with wasShutDown := true } :=
      .of_frame rfl rfl rfl
    exact (settles_succeed _ .null).of_remarks hshut
  by_cases hresolve : method = "codeLens/resolve"
  · subst hresolve
    exact settles_succeed s _
  by_cases hexecute : method = "workspace/executeCommand"
  · subst hexecute
    exact settles_succeed s _
  by_cases hown : method.startsWith "mockls/" = true
  · have heq : (fun id => s.answer id method params) = fun id =>
        s.answerOwn id method params := by
      funext id
      exact answer_eq_answerOwn s params id hfirst hshutdown hresolve
        hexecute hown
    rw [heq]
    exact settles_answerOwn s params hcrash
  · have heq : (fun id => s.answer id method params) =
        fun id => s.succeed id (s.fixture.answer method params) := by
      funext id
      simp only [answer, if_neg hown]
    rw [heq]
    exact settles_succeed s _

theorem settles_handleRequest (hanswers : s.behaviour.silentOn = [])
    (hlasts : s.behaviour.exitsOn method = false) :
    Settles s fun id => s.handleRequest id method params := by
  unfold handleRequest
  simp only [hanswers, List.contains_nil, Bool.false_eq_true, if_false]
  by_cases hfails : s.behaviour.failsOn.contains method = true
  · simp only [if_pos hfails]
    exact settles_internalError s _
  · simp only [if_neg hfails]
    have hposition := Remarks.notePosition s params
    refine (settles_answer _ params ?_).of_remarks hposition
    obtain ⟨asides, -, hwrote⟩ := hposition
    rw [hwrote.behaviour]
    exact hlasts

end Methods

/-! # Requests that arrive -/

/-- What a server answers a request in the state in which it is: it writes this
outcome under whatever number the request has, and before that only requests and
notifications of its own. -/
def Answers (s : Server) (method : String) (params : Json) (outcome : Outcome) :
    Prop :=
  ∃ asides, (∀ m ∈ asides, m.IsAside) ∧ ∀ n,
    (s.receive (Message.request n method params).toJson).written =
      s.written ++ (asides ++ [reply (.ofNat n) outcome])

theorem Answers.unique {s : Server} {method : String} {params : Json}
    {outcome other : Outcome} (h : s.Answers method params outcome)
    (h' : s.Answers method params other) : outcome = other := by
  obtain ⟨asides, -, hwritten⟩ := h
  obtain ⟨asides', -, hwritten'⟩ := h'
  have heq := List.append_cancel_left ((hwritten 0).symm.trans (hwritten' 0))
  exact Message.reply_inj (List.cons.inj (List.append_inj' heq rfl).2).1

section Arriving

variable {s : Server} {method : String} {params : Json}

/-- A server that takes note of a method. It is the same whatever number the
request has. -/
def noted (s : Server) (method : String) : Server :=
  { s with journal := s.journal ++ [method] }

theorem receive_request (hruns : s.exitCode = none) (n : Nat) (method : String)
    (params : Json) :
    s.receive (Message.request n method params).toJson =
      (s.noted method).handleRequest (.ofNat n) method params := by
  have hnoted : s.noteMethod (Message.request n method params).toJson =
      s.noted method := by
    rw [noteMethod, Message.method?_request]
    rfl
  unfold receive
  rw [hruns, hnoted, Message.classify_request]
  rfl

theorem answers_of_concludes (hruns : s.exitCode = none) {outcome : Outcome}
    (h : Concludes (s.noted method)
      (fun id => (s.noted method).handleRequest id method params) outcome) :
    s.Answers method params outcome ∧ ∀ n, ∃ asides, (∀ m ∈ asides, m.IsAside) ∧
      Wrote s (s.receive (Message.request n method params).toJson)
        (asides ++ [reply (.ofNat n) outcome]) := by
  have hnoted : Remarks s (s.noted method) := .of_frame rfl rfl rfl
  obtain ⟨asides, hasides, hwrote⟩ := h.of_remarks hnoted
  constructor
  · refine ⟨asides, hasides, fun n => ?_⟩
    rw [receive_request hruns]
    exact (hwrote (.ofNat n)).written
  · intro n
    rw [receive_request hruns]
    exact ⟨asides, hasides, hwrote (.ofNat n)⟩

theorem answer_echo (s : Server) (id params : Json) :
    s.answer id "mockls/echo" params = s.succeed id params := by
  rw [answer_eq_answerOwn s params id (by decide) (by decide) (by decide)
    (by decide) (by simp)]
  rfl

theorem answers_echo (hruns : s.exitCode = none)
    (hanswers : s.behaviour.silentOn = []) (hworks : s.behaviour.failsOn = [])
    (params : Json) :
    s.Answers "mockls/echo" params (.ok params) := by
  refine (answers_of_concludes hruns ?_).1
  have hhandle :
      (fun id =>
        (s.noted "mockls/echo").handleRequest id "mockls/echo" params) =
      fun id =>
        ((s.noted "mockls/echo").notePosition params).succeed id params := by
    funext id
    have hanswers' : (s.noted "mockls/echo").behaviour.silentOn = [] := hanswers
    have hworks' : (s.noted "mockls/echo").behaviour.failsOn = [] := hworks
    rw [handleRequest, hanswers', hworks', answer_echo]
    rfl
  rw [hhandle]
  exact (concludes_succeed _ params).of_remarks (Remarks.notePosition _ params)

end Arriving

/-! # Messages of a client -/

/-- Whether a server goes on after a message of a client. -/
def IsBorne (b : Behaviour) : Message → Prop
  | .request _ method _ => b.exitsOn method = false
  | .notification method _ => method ≠ "exit"
  | .success _ _ | .failure _ _ => True
  | .value _ => False

/-- What a server makes of one message of a client. -/
inductive Handled (s s' : Server) : Message → Prop where
  | answered (n : Nat) (method : String) (params : Json) (outcome : Outcome)
      (asides : List Message) (hreadable : IsReadable outcome)
      (hanswers : s.Answers method params outcome)
      (hasides : ∀ m ∈ asides, m.IsAside)
      (hwrote : Wrote s s' (asides ++ [reply (.ofNat n) outcome])) :
      Handled s s' (.request n method params)
  | taken (m : Message) (hm : CallLedger.requestId? m = none)
      (hremarks : Remarks s s') :
      Handled s s' m

theorem remarks_of_answeredId? {s : Server} (hruns : s.exitCode = none)
    {m : Message} {id : Json} (hid : m.answeredId? = some id) :
    Remarks s (s.receive m.toJson) := by
  have hnoted := Remarks.noteMethod s m.toJson
  unfold receive
  rw [hruns]
  rcases Message.classify_of_answeredId? hid with
    ⟨n, outcome, hclass⟩ | ⟨reason, hclass⟩
  · rw [hclass]
    exact hnoted.trans (.of_frame rfl rfl rfl)
  · rw [hclass]
    exact hnoted

theorem remarks_of_notification {s : Server} (hruns : s.exitCode = none)
    {method : String} (hexit : method ≠ "exit") (params : Json) :
    Remarks s (s.receive (Message.notification method params).toJson) := by
  unfold receive
  rw [hruns, Message.classify_notification]
  exact (Remarks.noteMethod s _).trans
    (Remarks.handleNotification hexit _ params)

theorem handled_receive {s : Server} (hruns : s.exitCode = none)
    (hanswers : s.behaviour.silentOn = []) {m : Message}
    (hm : IsBorne s.behaviour m) : Handled s (s.receive m.toJson) m := by
  cases m with
  | request n method params =>
      obtain ⟨outcome, hreadable, hconcludes⟩ :=
        settles_handleRequest (s.noted method) params hanswers hm
      obtain ⟨hanswered, hwrote⟩ := answers_of_concludes hruns hconcludes
      obtain ⟨asides, hasides, hwrote⟩ := hwrote n
      exact .answered n method params outcome asides hreadable hanswered
        hasides hwrote
  | notification method params =>
      exact .taken _ rfl (remarks_of_notification hruns hm params)
  | success id result =>
      exact .taken _ rfl (remarks_of_answeredId? hruns rfl)
  | failure id error =>
      exact .taken _ rfl (remarks_of_answeredId? hruns rfl)
  | value v =>
      exact hm.elim

/-! # All messages -/

def workOff (s : Server) (messages : List Message) : Server :=
  messages.foldl (fun s m => s.receive m.toJson) s

theorem workOff_snoc (s : Server) (messages : List Message) (m : Message) :
    s.workOff (messages ++ [m]) = (s.workOff messages).receive m.toJson :=
  List.foldl_append

/-- A message answers one of the messages that a server has worked off: a
request, with what the server answered it as it then was. -/
def AnswersOneOf (s : Server) (messages : List Message) (answer : Message) :
    Prop :=
  ∃ before n method params after outcome,
    messages = before ++ .request n method params :: after ∧
    answer = reply (.ofNat n) outcome ∧ IsReadable outcome ∧
    (s.workOff before).Answers method params outcome

theorem AnswersOneOf.append {s : Server} {messages : List Message}
    {answer : Message} (h : s.AnswersOneOf messages answer)
    (more : List Message) :
    s.AnswersOneOf (messages ++ more) answer := by
  obtain ⟨before, n, method, params, after, outcome, rfl, hrest⟩ := h
  exact ⟨before, n, method, params, after ++ more, outcome, by simp, hrest⟩

/-- What holds of a server that has worked off some messages. -/
structure WorkedOff (s : Server) (messages : List Message) : Prop where
  exitCode : (s.workOff messages).exitCode = none
  behaviour : (s.workOff messages).behaviour = s.behaviour
  ids : (s.workOff messages).written.filterMap answeredId? =
    (messages.filterMap CallLedger.requestId?).map Json.ofNat
  own :
    ∀ m ∈ (s.workOff messages).written, m.IsAside ∨ s.AnswersOneOf messages m

theorem WorkedOff.snoc {s : Server} {messages : List Message}
    (h : s.WorkedOff messages) (hanswers : s.behaviour.silentOn = [])
    {m : Message} (hm : IsBorne s.behaviour m) :
    s.WorkedOff (messages ++ [m]) := by
  have hhandled :
      Handled (s.workOff messages) (s.workOff (messages ++ [m])) m := by
    rw [workOff_snoc]
    exact handled_receive h.exitCode (by rw [h.behaviour, hanswers])
      (by rwa [h.behaviour])
  have hnone {asides : List Message} (hasides : ∀ m ∈ asides, m.IsAside) :
      asides.filterMap answeredId? = [] :=
    List.filterMap_eq_nil_iff.mpr fun m hm => (hasides m hm).answeredId?_eq_none
  have hearlier {answer : Message}
      (hanswer : answer ∈ (s.workOff messages).written) :
      answer.IsAside ∨ s.AnswersOneOf (messages ++ [m]) answer :=
    (h.own answer hanswer).imp_right fun hone => hone.append [m]
  cases hhandled with
  | answered n method params outcome asides hreadable hanswered
        hasides hwrote =>
      constructor
      · rw [hwrote.exitCode, h.exitCode]
      · rw [hwrote.behaviour, h.behaviour]
      · rw [hwrote.written]
        simp only [List.filterMap_append, h.ids, hnone hasides, List.nil_append,
          List.map_append]
        simp [Message.answeredId?_reply, CallLedger.requestId?]
      · intro answer hanswer
        rw [hwrote.written, List.mem_append, List.mem_append,
          List.mem_singleton] at hanswer
        rcases hanswer with hwritten | haside | rfl
        · exact hearlier hwritten
        · exact .inl (hasides answer haside)
        · exact .inr ⟨messages, n, method, params, [], outcome, rfl, rfl,
            hreadable, hanswered⟩
  | taken m hrequest hremarks =>
      obtain ⟨asides, hasides, hwrote⟩ := hremarks
      constructor
      · rw [hwrote.exitCode, h.exitCode]
      · rw [hwrote.behaviour, h.behaviour]
      · rw [hwrote.written]
        simp [h.ids, hnone hasides, hrequest]
      · intro answer hanswer
        rw [hwrote.written, List.mem_append] at hanswer
        rcases hanswer with hwritten | haside
        · exact hearlier hwritten
        · exact .inl (hasides answer haside)

/-- A server that has just begun answers each request of a client once, in the
order in which they arrive, and nothing else. -/
theorem workedOff_of_borne {s : Server} (hruns : s.exitCode = none)
    (hfresh : s.written = []) (hanswers : s.behaviour.silentOn = [])
    {messages : List Message} (hborne : ∀ m ∈ messages, IsBorne s.behaviour m) :
    s.WorkedOff messages := by
  induction messages using List.reverseRecOn with
  | nil =>
      constructor
      · exact hruns
      · rfl
      · show s.written.filterMap answeredId? = []
        rw [hfresh]
        rfl
      · intro m hm
        change m ∈ s.written at hm
        rw [hfresh] at hm
        exact nomatch hm
  | append_singleton messages m ih =>
      have hbefore : ∀ m' ∈ messages, IsBorne s.behaviour m' :=
        fun m' hm' => hborne m' (List.mem_append_left _ hm')
      exact (ih hbefore).snoc hanswers (hborne m (by simp))

end Server
end Mock
end CodeIntel
