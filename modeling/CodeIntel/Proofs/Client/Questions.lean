import CodeIntel.Proofs.Client.Opening

/-!
# What a request asks

A request puts one question to the server. While the client waits for the answer
it may answer the server in turn, but asks nothing else. If the connection is
lost beforehand nothing at all is written, and the request fails at once.
-/

namespace CodeIntel

def Message.question? : Message → Option (String × Json)
  | .request _ method params => some (method, params)
  | _ => none

namespace Client

variable {σ α : Type}

/-! # Questions on the wire -/

/-- The requests that were written between two states of a client. -/
def Asked (questions : List (String × Json)) (c c' : Client σ) : Prop :=
  ∃ sent, c'.connection.wire = c.connection.wire ++ sent ∧
    sent.filterMap Message.question? = questions

namespace Asked

variable {questions more : List (String × Json)} {a b c c' : Client σ}

theorem of_sends
    (h : c.connection.Sends (fun m => m.question? = none) c'.connection) :
    Asked [] c c' := by
  obtain ⟨sent, hwire, hsent⟩ := h
  exact ⟨sent, hwire, List.filterMap_eq_nil_iff.mpr hsent⟩

theorem of_wire (h : c'.connection.wire = c.connection.wire) : Asked [] c c' :=
  of_sends (.of_wire h)

theorem trans (hab : Asked questions a b) (hbc : Asked more b c) :
    Asked (questions ++ more) a c := by
  obtain ⟨sent, hb, hsent⟩ := hab
  obtain ⟨sent', hc, hsent'⟩ := hbc
  refine ⟨sent ++ sent', by rw [hc, hb, List.append_assoc], ?_⟩
  rw [List.filterMap_append, hsent, hsent']

theorem wire_ne (h : Asked questions c c') (hsome : questions ≠ []) :
    c'.connection.wire ≠ c.connection.wire := by
  obtain ⟨sent, hwire, hsent⟩ := h
  intro heq
  rw [heq] at hwire
  have hnone : sent = [] := List.self_eq_append_right.mp hwire
  rw [hnone] at hsent
  exact hsome hsent.symm

end Asked

/-- Nothing is asked while a client waits. -/
theorem permits_asked_nothing : Permits (Asked (σ := σ) []) := by
  constructor
  · exact Asked.trans
  · intro c c' _ _ hdocuments _ _
    exact .of_wire (by rw [connection, hdocuments, connection])
  · intro frame c
    exact .of_sends
      (.dispatch (fun _ _ => rfl) (fun _ _ => rfl) frame c.connection)
  · intro c
    exact .of_wire (Connection.close_wire c.connection)

/-! # One question -/

/-- A step that asks one thing and nothing else, or fails with a connection that
was lost already. -/
inductive Asks (method : String) (params : Json) (c : Client σ) :
    Except ClientFault α × Client σ → Prop where
  | asked {answer : Except ClientFault α} {c' : Client σ} (hlive : c.IsLive)
    (hasked : Asked [(method, params)] c c') : Asks method params c (answer, c')
  | lost {c' : Client σ} (hlost : ¬ c.IsLive)
    (hwire : c'.connection.wire = c.connection.wire) :
    Asks method params c (.error .disconnected, c')

theorem asks_callUntil (deadline limit : Nat) (method : String) (params : Json)
    (c : Client σ) :
    Asks method params c (c.callUntil deadline limit method params) := by
  rw [callUntil]
  rcases Connection.startCall_cases c.connection method params with
    ⟨hopen, hunbroken, heq⟩ | ⟨-, hbroken, heq⟩ | ⟨hclosed, heq⟩
  · rw [heq]
    refine .asked ⟨hopen, hunbroken⟩ ?_
    have hstarted : Asked [(method, params)] c (c.onConnection fun _ =>
        { c.connection.entered with
          wire :=
            c.connection.wire ++ [c.connection.nextRequest method params] }) :=
      ⟨[c.connection.nextRequest method params], rfl, rfl⟩
    exact hstarted.trans ((permits_asked_nothing.waitUntil _ _ _).trans
      (.of_wire (Connection.release_wire _ _)))
  · rw [heq]
    refine .lost (fun hlive => nomatch hlive.2.symm.trans hbroken) ?_
    show (c.connection.entered.close.release c.connection.nextCall).wire = _
    rw [Connection.release_wire, Connection.close_wire, Connection.entered_wire]
  · rw [heq]
    exact .lost (fun hlive => nomatch hlive.1.symm.trans hclosed) rfl

theorem asks_request (r : Request α) (params : Json) (c : Client σ) :
    Asks r.method params c (request r params c) := by
  have hcall : Asks r.method params c (call r.method params c) :=
    asks_callUntil _ _ r.method params c
  rw [request, bind_apply]
  generalize call r.method params c = result at hcall ⊢
  cases hcall with
  | lost hlost hwire =>
      exact .lost hlost hwire
  | @asked answer c' hlive hasked =>
      cases answer with
      | error f =>
          exact .asked hlive hasked
      | ok value =>
          dsimp only
          cases r.decode? value with
          | none =>
              exact .asked hlive hasked
          | some a =>
              exact .asked hlive hasked

end Client
end CodeIntel
