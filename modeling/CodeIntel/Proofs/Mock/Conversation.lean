import CodeIntel.Proofs.Connection.Living
import CodeIntel.Proofs.Connection.Sending
import CodeIntel.Proofs.Mock.Answering

/-!
# A client in conversation with the scripted server

Both ends are the real ones. What one end has written is in flight until the
other end takes it, message by message and in the order in which it was written.
Meanwhile calls start, end and are given up, and notifications are sent, in any
order.

The server has then answered each request that it took, once and under its
number, and nothing else; and a call ends with what the server answered to the
method and parameters of that call. Two invariants carry this: `InTouch` is
about the server and what was sent to it, `Attended` is about the calls.
-/

namespace CodeIntel

open Connection (number)
open Message (answeredId? reply IsReadable)
open Mock (Server Behaviour Fixture)

/-- Both ends of a connection, each with all that it has written. -/
structure Conversation where
  ledger : CallLedger := {}
  server : Server
  /-- How many messages of the client the server has taken. -/
  heard : Nat := 0
  /-- How many messages of the server the client has taken. -/
  seen : Nat := 0

namespace Conversation

inductive Event where
  | start (method : String) (params : Json)
  | notify (method : String) (params : Json)
  | resume (call : Nat)
  | timeOut (call : Nat)
  | drop (call : Nat)
  /-- The server takes a message of the client. -/
  | hear
  /-- The client takes a message of the server. -/
  | see

/-- The messages that are in flight to the server, the oldest one first. -/
def toServer (v : Conversation) : List Message :=
  v.ledger.connection.wire.drop v.heard

def toClient (v : Conversation) : List Message :=
  v.server.written.drop v.seen

def taken (v : Conversation) : List Message :=
  v.ledger.connection.wire.take v.heard

def onLedger (v : Conversation) (st : CallStep) : Conversation :=
  { v with ledger := v.ledger.step st }

def hear (v : Conversation) : Conversation :=
  match v.toServer with
  | m :: _ =>
    { v with server := v.server.receive m.toJson, heard := v.heard + 1 }
  | [] => v

def see (v : Conversation) : Conversation :=
  match v.toClient with
  | m :: _ => { v.onLedger (.dispatch m.toJson) with seen := v.seen + 1 }
  | [] => v

def step (v : Conversation) : Event → Conversation
  | .start method params => v.onLedger (.start method params)
  | .notify method params => v.onLedger (.notify method params)
  | .resume call => v.onLedger (.resume call)
  | .timeOut call => v.onLedger (.timeOut call)
  | .drop call => v.onLedger (.drop call)
  | .hear => v.hear
  | .see => v.see

def run (v : Conversation) (events : List Event) : Conversation :=
  events.foldl step v

theorem run_snoc (v : Conversation) (events : List Event) (e : Event) :
    v.run (events ++ [e]) = (v.run events).step e :=
  List.foldl_append

/-! # What an event does -/

/-- An event is a step of the calls, or the server takes a message, or there is
none to take. -/
inductive Turn (v v' : Conversation) (e : Event) : Prop where
  | client (st : CallStep) (hbreak : st ≠ .breakPipe) (hclose : st ≠ .close)
      (hstart : ∀ method params, st = .start method params ↔
        e = .start method params)
      (hnotify : ∀ method params, st = .notify method params →
        e = .notify method params)
      (hframe : ∀ frame, st = .dispatch frame →
        ∃ m ∈ v.server.written, frame = m.toJson)
      (hledger : v'.ledger = v.ledger.step st)
      (hserver : v'.server = v.server)
      (hheard : v'.heard = v.heard)
  | server (m : Message) (hnext : v.ledger.connection.wire[v.heard]? = some m)
      (hstart : ∀ method params, e ≠ .start method params)
      (hledger : v'.ledger = v.ledger)
      (hserver : v'.server = v.server.receive m.toJson)
      (hheard : v'.heard = v.heard + 1)
  | idle (hstart : ∀ method params, e ≠ .start method params) (hsame : v' = v)

theorem turn_step (v : Conversation) (e : Event) : Turn v (v.step e) e := by
  cases e with
  | start method params =>
      exact .client (.start method params) (by simp) (by simp) (by simp)
        (by simp) (by simp)
        rfl rfl rfl
  | notify method params =>
      exact .client (.notify method params) (by simp) (by simp) (by simp)
        (by simp) (by simp)
        rfl rfl rfl
  | resume call =>
      exact .client (.resume call) (by simp) (by simp) (by simp) (by simp)
        (by simp) rfl rfl rfl
  | timeOut call =>
      exact .client (.timeOut call) (by simp) (by simp) (by simp) (by simp)
        (by simp) rfl rfl rfl
  | drop call =>
      exact .client (.drop call) (by simp) (by simp) (by simp) (by simp)
        (by simp) rfl rfl rfl
  | hear =>
      show Turn v v.hear .hear
      unfold hear
      split
      · next m rest hflight =>
          refine .server m ?_ (by simp) rfl rfl rfl
          rw [← List.head?_drop]
          exact congrArg List.head? hflight
      · exact .idle (by simp) rfl
  | see =>
      show Turn v v.see .see
      unfold see
      split
      · next m rest hflight =>
          have hwritten : m ∈ v.server.written := by
            apply List.mem_of_mem_drop
            rw [← toClient, hflight]
            exact List.mem_cons_self
          refine .client (.dispatch m.toJson) (by simp) (by simp) (by simp)
            (by simp) ?_ rfl rfl rfl
          rintro _ ⟨⟩
          exact ⟨m, hwritten, rfl⟩
      · exact .idle (by simp) rfl

/-! # The server and what was sent to it -/

/-- Whatever the steps of the calls are, what they write has the properties of
their requests, of their notifications and of all answers. -/
theorem sends_step {P : Message → Prop} (l : CallLedger) {st : CallStep}
    (hstart : ∀ method params, st = .start method params →
      ∀ n, P (.request n method params))
    (hnotify : ∀ method params, st = .notify method params →
      P (.notification method params))
    (hsuccess : ∀ id result, P (.success id result))
    (hfailure : ∀ id error, P (.failure id error)) :
    Connection.Sends P l.connection (l.step st).connection := by
  have hleave (call : Nat) (state : CallState) :
      Connection.Sends P l.connection (l.leave call state).connection :=
    .of_wire (Connection.release_wire _ _)
  cases st with
  | start method params =>
      have hconnection : (l.start method params).connection =
          (l.connection.startCall method params).2 := by
        unfold CallLedger.start
        split
        · next heq => rw [heq]
        · next heq =>
            rw [heq]
            split <;> rfl
      show Connection.Sends P _ (l.start method params).connection
      rw [hconnection]
      exact .startCall (hstart method params rfl) _
  | dispatch frame =>
      exact .dispatch hsuccess hfailure frame _
  | resume call =>
      show Connection.Sends P _ (l.resume call).connection
      unfold CallLedger.resume
      split
      · exact hleave _ _
      · exact .refl _
  | timeOut call =>
      show Connection.Sends P _ (l.timeOut call).connection
      unfold CallLedger.timeOut
      split
      · exact hleave _ _
      · exact .refl _
  | drop call =>
      show Connection.Sends P _ (l.drop call).connection
      unfold CallLedger.drop
      split
      · exact hleave _ _
      · exact .refl _
  | notify method params =>
      exact .write (hnotify method params rfl) _
  | breakPipe =>
      exact .of_wire rfl
  | close =>
      exact .of_wire (Connection.close_wire _)

/-- The server is where the messages have brought it that it has taken, and goes
on after each of those that were sent to it. -/
structure InTouch (s : Server) (v : Conversation) : Prop where
  borne : ∀ m ∈ v.ledger.connection.wire, Server.IsBorne s.behaviour m
  within : v.heard ≤ v.ledger.connection.wire.length
  server : v.server = s.workOff v.taken

section Touch

variable {s : Server} {v v' : Conversation} {e : Event}

theorem taken_of_heard {m : Message}
    (hnext : v.ledger.connection.wire[v.heard]? = some m)
    (hledger : v'.ledger = v.ledger) (hheard : v'.heard = v.heard + 1) :
    v'.taken = v.taken ++ [m] := by
  rw [taken, taken, hledger, hheard, List.take_add_one, hnext]
  rfl

theorem InTouch.taken_prefix (h : InTouch s v) (hturn : Turn v v' e) :
    v.taken <+: v'.taken := by
  cases hturn with
  | client st hbreak hclose hstart hnotify hframe hledger hserver hheard =>
      have hsends : Connection.Sends (fun _ => True) v.ledger.connection
          (v.ledger.step st).connection :=
        sends_step v.ledger (by simp) (by simp) (by simp) (by simp)
      obtain ⟨sent, hwire, -⟩ := hsends
      rw [taken, taken, hledger, hheard, hwire,
        List.take_append_of_le_length h.within]
  | server m hnext hstart hledger hserver hheard =>
      rw [taken_of_heard hnext hledger hheard]
      exact List.prefix_append _ _
  | idle hstart hsame =>
      rw [hsame]

theorem InTouch.turn (h : InTouch s v) (hturn : Turn v v' e)
    (hlasts : ∀ method params, e = .start method params →
      s.behaviour.exitsOn method = false)
    (hexit : ∀ params, e ≠ .notify "exit" params) : InTouch s v' := by
  cases hturn with
  | client st hbreak hclose hstart hnotify hframe hledger hserver hheard =>
      have hsends :
          Connection.Sends (Server.IsBorne s.behaviour) v.ledger.connection
          (v.ledger.step st).connection := by
        apply sends_step
        · intro method params hst n
          exact hlasts method params ((hstart method params).mp hst)
        · rintro method params hst rfl
          exact hexit params (hnotify _ params hst)
        · intro id result
          trivial
        · intro id error
          trivial
      obtain ⟨sent, hwire, hsent⟩ := hsends
      constructor
      · intro m hm
        rw [hledger, hwire, List.mem_append] at hm
        rcases hm with hm | hm
        · exact h.borne m hm
        · exact hsent m hm
      · rw [hledger, hheard, hwire, List.length_append]
        exact Nat.le_trans h.within (Nat.le_add_right _ _)
      · rw [hserver, taken, hledger, hheard, hwire,
          List.take_append_of_le_length h.within]
        exact h.server
  | server m hnext hstart hledger hserver hheard =>
      constructor
      · rw [hledger]
        exact h.borne
      · rw [hledger, hheard]
        exact Nat.succ_le_of_lt (List.getElem?_eq_some_iff.mp hnext).1
      · rw [hserver, h.server, taken_of_heard hnext hledger hheard,
          Server.workOff_snoc]
  | idle hstart hsame =>
      rwa [hsame]

end Touch

/-! # The calls -/

def Event.asks? : Event → Option (String × Json)
  | .start method params => some (method, params)
  | _ => none

def asked (events : List Event) : List (String × Json) :=
  events.filterMap Event.asks?

theorem asked_snoc_start (events : List Event) (method : String)
    (params : Json) :
    asked (events ++ [.start method params]) =
      asked events ++ [(method, params)] := by
  rw [asked, List.filterMap_append]
  rfl

theorem asked_snoc_other (events : List Event) {e : Event}
    (h : ∀ method params, e ≠ .start method params) :
    asked (events ++ [e]) = asked events := by
  have hnone : e.asks? = none := by
    cases e with
    | start method params => exact absurd rfl (h method params)
    | _ => rfl
  rw [asked, List.filterMap_append, List.filterMap_cons_none hnone]
  exact List.append_nil _

/-- A reply is what the server answered a request when it came to it: the
request is among the messages that the server has taken, and all messages before
it have brought the server into the state in which it answered. -/
def Served (s : Server) (taken : List Message) (n : Nat) (method : String)
    (params : Json) (reply : Reply) : Prop :=
  ∃ before outcome, before ++ [.request n method params] <+: taken ∧
    (s.workOff before).Answers method params outcome ∧
    reply = outcome.mapError .server

theorem Served.grow {s : Server} {taken taken' : List Message} {n : Nat}
    {method : String} {params : Json} {reply : Reply}
    (h : Served s taken n method params reply) (hgrown : taken <+: taken') :
    Served s taken' n method params reply := by
  obtain ⟨before, outcome, hbegin, hrest⟩ := h
  exact ⟨before, outcome, hbegin.trans hgrown, hrest⟩

theorem Served.mem_taken {s : Server} {taken : List Message} {n : Nat}
    {method : String} {params : Json} {reply : Reply}
    (h : Served s taken n method params reply) :
    .request n method params ∈ taken := by
  obtain ⟨before, outcome, hbegin, -⟩ := h
  exact hbegin.subset (by simp)

/-- Whether a reply is what the server answered the request with a number. -/
def Accounted (s : Server) (taken : List Message) (n : Nat) (reply : Reply) :
    Prop :=
  ∃ method params, Served s taken n method params reply

theorem Accounted.grow {s : Server} {taken taken' : List Message} {n : Nat}
    {reply : Reply} (h : Accounted s taken n reply)
    (hgrown : taken <+: taken') : Accounted s taken' n reply := by
  obtain ⟨method, params, hserved⟩ := h
  exact ⟨method, params, hserved.grow hgrown⟩

/-- What holds of the calls after some events. -/
structure Attended (s : Server) (events : List Event) (v : Conversation) :
    Prop where
  kept : v.ledger.WellKept
  lives : v.ledger.Lives
  listed : v.ledger.calls.length = (asked events).length
  requests :
    ∀ n method params, .request n method params ∈ v.ledger.connection.wire →
    ∃ i : Nat, (asked events)[i]? = some (method, params) ∧ n = number (i + 1)
  replied : ∀ call reply, v.ledger.connection.reply? call = some reply →
    Accounted s v.taken (number call) reply
  finished : ∀ call reply, (call, .finished reply) ∈ v.ledger.calls →
    Accounted s v.taken (number call) reply

section Calls

variable {s : Server} {events : List Event} {v v' : Conversation} {e : Event}

/-- A response that the server wrote brings a call what the server answered to
its request. -/
theorem accounted_of_response (hworked : s.WorkedOff v.taken)
    (htouch : InTouch s v) {m : Message} (hm : m ∈ v.server.written) {n : Nat}
    {outcome : Outcome}
    (hclass : Incoming.classify m.toJson = .response n outcome) :
    Accounted s v.taken n (outcome.mapError .server) := by
  rw [htouch.server] at hm
  -- what the server asks or tells on its own is never taken for a response
  rcases hworked.own m hm with haside | hone
  · exact absurd hclass (haside.not_response n outcome)
  · obtain ⟨before, n', method, params, after, outcome', htaken, rfl,
      hreadable, hanswers⟩ := hone
    rw [Message.classify_reply hreadable] at hclass
    obtain ⟨rfl, rfl⟩ := Incoming.response.inj hclass
    refine ⟨method, params, before, outcome', ?_, hanswers, rfl⟩
    rw [htaken]
    exact ⟨after, by simp⟩

theorem Attended.client (h : Attended s events v)
    (hworked : s.WorkedOff v.taken) (htouch : InTouch s v) {st : CallStep}
    (hbreak : st ≠ .breakPipe) (hclose : st ≠ .close)
    (hstart : ∀ method params, st = .start method params ↔
      e = .start method params)
    (hframe : ∀ frame, st = .dispatch frame →
      ∃ m ∈ v.server.written, frame = m.toJson)
    (hledger : v'.ledger = v.ledger.step st) (hgrown : v.taken <+: v'.taken)
    (hfew : (asked (events ++ [e])).length ≤ Numeral.max64) :
    Attended s (events ++ [e]) v' := by
  have hstarted (method : String) (params : Json)
      (hst : st = .start method params) :
      asked (events ++ [e]) = asked events ++ [(method, params)] := by
    rw [(hstart method params).mp hst, asked_snoc_start]
  have hother (hst : ∀ method params, st ≠ .start method params) :
      asked (events ++ [e]) = asked events :=
    asked_snoc_other events fun method params he =>
      hst method params ((hstart method params).mpr he)
  obtain ⟨hlives, hproceeds⟩ := h.lives.proceeds_step h.kept hbreak hclose (by
    intro method params hst
    rw [hstarted method params hst, List.length_append] at hfew
    rw [h.listed]
    exact hfew)
  rw [← hledger] at hlives hproceeds
  have hlisted : v'.ledger.calls.length = (asked (events ++ [e])).length := by
    rcases hproceeds.length_eq with ⟨⟨method, params, hst⟩, heq⟩ | ⟨hst, heq⟩
    · rw [heq, h.listed, hstarted method params hst, List.length_append]
      rfl
    · rw [heq, h.listed, hother hst]
  -- the slots are kept by any step, whether the connection lives or not
  have hmoves : CallLedger.Moves v.ledger v'.ledger st := by
    rw [hledger]
    apply h.kept.moves_step
    rw [← hledger, hlisted]
    exact hfew
  have hasked : asked events <+: asked (events ++ [e]) := by
    rw [asked, asked, List.filterMap_append]
    exact List.prefix_append _ _
  constructor
  · exact h.kept.of_moves hmoves (by rwa [hlisted])
  · exact hlives
  · exact hlisted
  · intro n method params hm
    rcases hproceeds.request_origin hm with hm | ⟨hst, hn⟩
    · obtain ⟨i, hi, hn⟩ := h.requests n method params hm
      refine ⟨i, ?_, hn⟩
      obtain ⟨new, heq⟩ := hasked
      rw [← heq, List.getElem?_append_left (List.getElem?_eq_some_iff.mp hi).1]
      exact hi
    -- the call that was started last is the last one that was asked for
    · refine ⟨(asked events).length, ?_, ?_⟩
      · rw [hstarted method params hst]
        exact List.getElem?_concat_length
      · rw [hn, h.kept.next, h.listed]
  · intro call reply hsome
    rcases hproceeds.reply_origin hsome with
      hsome | ⟨frame, outcome, hst, -, hclass, rfl⟩
    · exact (h.replied call reply hsome).grow hgrown
    · obtain ⟨m, hm, rfl⟩ := hframe frame hst
      exact (accounted_of_response hworked htouch hm hclass).grow hgrown
  · intro call reply hfinished
    rcases hproceeds.finished_origin hfinished with hfinished | hsome
    · exact (h.finished call reply hfinished).grow hgrown
    · exact (h.replied call reply hsome).grow hgrown

theorem Attended.turn (h : Attended s events v) (hworked : s.WorkedOff v.taken)
    (htouch : InTouch s v) (hturn : Turn v v' e)
    (hfew : (asked (events ++ [e])).length ≤ Numeral.max64) :
    Attended s (events ++ [e]) v' := by
  have hgrown := htouch.taken_prefix hturn
  cases hturn with
  | client st hbreak hclose hstart hnotify hframe hledger hserver hheard =>
      exact h.client hworked htouch hbreak hclose hstart hframe hledger
        hgrown hfew
  | server m hnext hstart hledger hserver hheard =>
      have hasked := asked_snoc_other events hstart
      constructor
      · rw [hledger]
        exact h.kept
      · rw [hledger]
        exact h.lives
      · rw [hledger, hasked]
        exact h.listed
      · rw [hledger, hasked]
        exact h.requests
      · rw [hledger]
        exact fun call reply hsome => (h.replied call reply hsome).grow hgrown
      · rw [hledger]
        exact fun call reply hfinished =>
          (h.finished call reply hfinished).grow hgrown
  | idle hstart hsame =>
      rw [hsame]
      exact { h with
        listed := by rw [asked_snoc_other events hstart, h.listed]
        requests := by rw [asked_snoc_other events hstart]; exact h.requests }

end Calls

/-! # Whole conversations -/

def beginning (behaviour : Behaviour) (fixture : Fixture) : Server :=
  { behaviour := behaviour, fixture := fixture }

/-- Whether nothing in a conversation ends the server. -/
structure IsPeaceful (behaviour : Behaviour) (events : List Event) : Prop where
  starts : ∀ method params, .start method params ∈ events →
    behaviour.exitsOn method = false
  notifies : ∀ params, .notify "exit" params ∉ events

theorem IsPeaceful.of_snoc {behaviour : Behaviour} {events : List Event}
    {e : Event} (h : IsPeaceful behaviour (events ++ [e])) :
    IsPeaceful behaviour events where
  starts method params hmem :=
    h.starts method params (List.mem_append_left _ hmem)
  notifies params hmem := h.notifies params (List.mem_append_left _ hmem)

theorem inTouch_run {s : Server} {events : List Event}
    (h : IsPeaceful s.behaviour events) :
    InTouch s (run { server := s } events) := by
  induction events using List.reverseRecOn with
  | nil =>
      exact ⟨fun m hm => (nomatch hm), Nat.zero_le _, rfl⟩
  | append_singleton events e ih =>
      rw [run_snoc]
      apply (ih h.of_snoc).turn (turn_step _ e)
      · rintro method params rfl
        exact h.starts method params (by simp)
      · rintro params rfl
        exact h.notifies params (by simp)

theorem workedOff_run {s : Server} (hruns : s.exitCode = none)
    (hfresh : s.written = []) (hanswers : s.behaviour.silentOn = [])
    {events : List Event} (h : IsPeaceful s.behaviour events) :
    s.WorkedOff (run { server := s } events).taken :=
  Server.workedOff_of_borne hruns hfresh hanswers fun m hm =>
    (inTouch_run h).borne m (List.mem_of_mem_take hm)

theorem attended_run {s : Server} (hruns : s.exitCode = none)
    (hfresh : s.written = []) (hanswers : s.behaviour.silentOn = [])
    {events : List Event} (h : IsPeaceful s.behaviour events)
    (hfew : (asked events).length ≤ Numeral.max64) :
    Attended s events (run { server := s } events) := by
  induction events using List.reverseRecOn with
  | nil =>
      exact {
        kept := CallLedger.traced_nil.kept
        lives := ⟨rfl, rfl⟩
        listed := rfl
        requests := fun n method params hm => nomatch hm
        replied := fun call reply hsome => nomatch hsome
        finished := fun call reply hfinished => nomatch hfinished }
  | append_singleton events e ih =>
      have hbefore := h.of_snoc
      have hshorter :
          (asked events).length ≤ (asked (events ++ [e])).length := by
        rw [asked, asked, List.filterMap_append, List.length_append]
        exact Nat.le_add_right _ _
      rw [run_snoc]
      exact (ih hbefore (Nat.le_trans hshorter hfew)).turn
        (workedOff_run hruns hfresh hanswers hbefore)
        (inTouch_run hbefore) (turn_step _ e) hfew

section Whole

variable {s : Server} {events : List Event} {method : String} {params : Json}
  {reply : Reply}

theorem Attended.served {v : Conversation} (h : Attended s events v)
    (hfew : (asked events).length ≤ Numeral.max64) {i : Nat}
    (hasked : (asked events)[i]? = some (method, params))
    (hfinished : (i + 1, .finished reply) ∈ v.ledger.calls) :
    Served s v.taken (i + 1) method params reply := by
  have hnumber {j : Nat} {e : String × Json}
      (hj : (asked events)[j]? = some e) :
      number (j + 1) = j + 1 :=
    Connection.number_of_le
      (Nat.le_trans (List.getElem?_eq_some_iff.mp hj).1 hfew)
  obtain ⟨method', params', hserved⟩ := h.finished (i + 1) reply hfinished
  rw [hnumber hasked] at hserved
  obtain ⟨j, hj, heq⟩ :=
    h.requests (i + 1) method' params' (List.mem_of_mem_take hserved.mem_taken)
  rw [hnumber hj] at heq
  obtain rfl : i = j := Nat.succ.inj heq
  obtain ⟨rfl, rfl⟩ := Prod.mk.inj (Option.some.inj (hasked.symm.trans hj))
  exact hserved

theorem Served.echo {taken : List Message} {n : Nat}
    (h : Served s taken n "mockls/echo" params reply)
    (hruns : s.exitCode = none) (hfresh : s.written = [])
    (hanswers : s.behaviour.silentOn = []) (hworks : s.behaviour.failsOn = [])
    (hborne : ∀ m ∈ taken, Server.IsBorne s.behaviour m) :
    reply = .ok params := by
  obtain ⟨before, outcome, hbegin, hserved, rfl⟩ := h
  have hworked : s.WorkedOff before := by
    apply Server.workedOff_of_borne hruns hfresh hanswers
    intro m hm
    exact hborne m (hbegin.subset (List.mem_append_left _ hm))
  have hecho :=
    Server.answers_echo hworked.exitCode (by rw [hworked.behaviour, hanswers])
    (by rw [hworked.behaviour, hworks]) params
  rw [hserved.unique hecho]
  rfl

end Whole

/-- A server that neither stays silent nor fails on purpose, in a conversation
in which nothing ends it, answers each request that it takes once, under the
number of the request and in the order in which it takes them, and nothing else.
As long as fewer than 2^64 calls are started, a call that ends with a reply ends
with what the server answered to the method and parameters of that call when it
came to its request; an echo ends with what was sent. -/
theorem conversation_serves_calls (behaviour : Behaviour) (fixture : Fixture)
    (hanswers : behaviour.silentOn = []) (hworks : behaviour.failsOn = [])
    (events : List Event) (hpeaceful : IsPeaceful behaviour events) :
    let s := beginning behaviour fixture
    let v := run { server := s } events
    v.server.written.filterMap answeredId? =
      (v.taken.filterMap CallLedger.requestId?).map Json.ofNat ∧
    ((asked events).length < Nat.pow 2 64 → ∀ i method params reply,
      (asked events)[i]? = some (method, params) →
      (i + 1, .finished reply) ∈ v.ledger.calls →
      Served s v.taken (i + 1) method params reply ∧
        (method = "mockls/echo" → reply = .ok params)) := by
  intro s v
  have hworked : s.WorkedOff v.taken := workedOff_run rfl rfl hanswers hpeaceful
  have htouch : InTouch s v := inTouch_run hpeaceful
  constructor
  · rw [htouch.server]
    exact hworked.ids
  · intro hfew i method params reply hasked hfinished
    have hfew' : (asked events).length ≤ Numeral.max64 :=
      Nat.le_of_lt_succ (by rw [Numeral.max64]; exact hfew)
    have hattended : Attended s events v :=
      attended_run rfl rfl hanswers hpeaceful hfew'
    have hserved := hattended.served hfew' hasked hfinished
    refine ⟨hserved, ?_⟩
    rintro rfl
    exact hserved.echo rfl rfl hanswers hworks fun m hm =>
      htouch.borne m (List.mem_of_mem_take hm)

/-- Two calls at once, the second of which is over before the first. -/
def twoCalls : List Event :=
  [.start "mockls/notify" (Json.ofMembers [("count", .ofNat 1)]),
    .start "mockls/echo" (.ofNat 7), .hear, .hear, .see, .see, .see, .resume 2]

def repliedTo (v : Conversation) : List Nat :=
  v.ledger.calls.filterMap fun e =>
    match e.2 with
    | .finished _ => some e.1
    | _ => none

theorem twoCalls_served :
    let s := beginning {} {}
    let v := run { server := s } twoCalls
    ({} : Behaviour).silentOn = [] ∧ ({} : Behaviour).failsOn = [] ∧
      IsPeaceful {} twoCalls ∧
    (asked twoCalls).length < Nat.pow 2 64 ∧
    (asked twoCalls)[1]? = some ("mockls/echo", .ofNat 7) ∧
    ∃ reply, (2, .finished reply) ∈ v.ledger.calls ∧
      Served s v.taken 2 "mockls/echo" (.ofNat 7) reply ∧
      reply = .ok (.ofNat 7) := by
  intro s v
  have hpeaceful : IsPeaceful {} twoCalls := by
    constructor
    · intro method params hmem
      simp only [twoCalls, List.mem_cons, Event.start.injEq, reduceCtorEq,
        List.not_mem_nil, or_false] at hmem
      rcases hmem with ⟨rfl, -⟩ | ⟨rfl, -⟩
      · rfl
      · rfl
    · intro params hmem
      simp [twoCalls] at hmem
  have hfew : (asked twoCalls).length < Nat.pow 2 64 := by decide
  have hended : 2 ∈ v.repliedTo := by decide +kernel
  obtain ⟨⟨call, state⟩, hcall, hstate⟩ := List.mem_filterMap.mp hended
  obtain ⟨-, hcalls⟩ :=
    conversation_serves_calls {} {} rfl rfl twoCalls hpeaceful
  cases state with
  | finished reply =>
      obtain rfl : call = 2 := Option.some.inj hstate
      obtain ⟨hserved, hecho⟩ := hcalls hfew 1 _ _ reply rfl hcall
      exact ⟨rfl, rfl, hpeaceful, hfew, rfl, reply, hcall, hserved, hecho rfl⟩
  | underway | timedOut | dropped =>
      exact nomatch hstate

end Conversation
end CodeIntel
