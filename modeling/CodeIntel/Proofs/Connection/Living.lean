import CodeIntel.Proofs.Connection.Dispatching
import CodeIntel.Proofs.Connection.FirstAnswer

/-!
# Calls on a connection that lives

A connection lives as long as nobody closes it and the other end takes what is
written. On such a connection each call that is started writes its request and
begins to wait, and a call that ends with a reply ends with what a response
brought it.
-/

namespace CodeIntel

open Connection (number)

namespace CallLedger

/-- Whether the connection is open and can be written to. -/
def Lives (l : CallLedger) : Prop :=
  l.connection.closed = false ∧ l.connection.broken = false

inductive Proceeds (l l' : CallLedger) (st : CallStep) : Prop where
  | starts (method : String) (params : Json) (hst : st = .start method params)
      (hcalls : l'.calls = l.calls ++ [(l.connection.nextCall, .underway)])
      (hwire : l'.connection.wire =
        l.connection.wire ++
          [.request (number l.connection.nextCall) method params])
      (hreplies : l'.connection.replies = l.connection.replies)
  | answers (call : Nat) (frame : Json) (outcome : Outcome)
      (hst : st = .dispatch frame)
      (hframe : Incoming.classify frame = .response (number call) outcome)
      (hslot : call ∈ l.connection.pending)
      (hcalls : l'.calls = l.calls)
      (hwire : l'.connection.wire = l.connection.wire)
      (hreplies : l'.connection.replies =
        l.connection.replies ++ [(call, outcome.mapError .server)])
  | leaves (call : Nat) (state : CallState)
      (hst : ∀ method params, st ≠ .start method params)
      (hstate : ∀ reply, state = .finished reply →
        l.connection.reply? call = some reply)
      (hcalls : l'.calls = l.calls.map fun e =>
        if e.1 = call then (call, state) else e)
      (hwire : l'.connection.wire = l.connection.wire)
      (hreplies : l'.connection.replies = l.connection.replies.filter fun e =>
        e.1 ≠ call)
  | rests (sent : List Message)
      (hst : ∀ method params, st ≠ .start method params)
      (hsent : ∀ m ∈ sent, requestId? m = none)
      (hcalls : l'.calls = l.calls)
      (hwire : l'.connection.wire = l.connection.wire ++ sent)
      (hreplies : l'.connection.replies = l.connection.replies)

variable {l : CallLedger}

/-! # What a step does -/

theorem Lives.proceeds_start (hlives : l.Lives) (h : l.WellKept)
    (hfew : l.calls.length + 1 ≤ Numeral.max64) (method : String)
    (params : Json) :
    (l.start method params).Lives ∧
      Proceeds l (l.start method params) (.start method params) := by
  have hstart : l.start method params =
      { connection := { l.connection.entered with
          wire :=
            l.connection.wire ++ [l.connection.nextRequest method params] }
        calls := l.calls ++ [(l.connection.nextCall, .underway)] } := by
    unfold start
    rcases Connection.startCall_cases l.connection method params with
      ⟨-, -, heq⟩ | ⟨-, hbroken, -⟩ | ⟨hclosed, -⟩
    · rw [heq]
    · exact nomatch hlives.2.symm.trans hbroken
    · exact nomatch hlives.1.symm.trans hclosed
  rw [hstart]
  obtain ⟨-, hreplies⟩ := h.entered_fields hfew
  refine ⟨⟨?_, ?_⟩, .starts method params rfl rfl rfl hreplies⟩
  · exact (Connection.entered_closed _).trans hlives.1
  · exact (Connection.entered_broken _).trans hlives.2

theorem Lives.proceeds_dispatch (hlives : l.Lives) (frame : Json) :
    (l.step (.dispatch frame)).Lives ∧
      Proceeds l (l.step (.dispatch frame)) (.dispatch frame) := by
  have hst :
      ∀ method params, CallStep.dispatch frame ≠ .start method params := by
    simp
  have h := Connection.dispatched_dispatch hlives.1 hlives.2 frame
  refine ⟨⟨h.closed, h.broken⟩, ?_⟩
  by_cases hresponse :
    ∃ id outcome, Incoming.classify frame = .response id outcome
  · obtain ⟨id, outcome, hframe⟩ := hresponse
    have hdispatch := Connection.dispatch_response hframe l.connection
    rcases Connection.complete_cases l.connection id outcome with
      ⟨call, hslot, rfl, heq⟩ | ⟨-, heq⟩
    · rw [heq] at hdispatch
      refine .answers call frame outcome rfl hframe hslot rfl ?_ ?_
      · show (l.connection.dispatch frame).wire = _
        rw [hdispatch]
      · show (l.connection.dispatch frame).replies = _
        rw [hdispatch]
    · rw [heq] at hdispatch
      refine .rests [] hst (fun _ hm => nomatch hm) rfl ?_ ?_
      · show (l.connection.dispatch frame).wire = _
        rw [hdispatch, List.append_nil]
      · show (l.connection.dispatch frame).replies = _
        rw [hdispatch]
  · obtain ⟨-, hreplies⟩ :=
      h.calls fun id outcome hframe => hresponse ⟨id, outcome, hframe⟩
    refine .rests (Connection.answersTo frame) hst ?_ rfl h.wire hreplies
    intro m hm
    unfold Connection.answersTo at hm
    split at hm
    · rw [List.mem_singleton.mp hm, Connection.response]
      split <;> rfl
    · exact nomatch hm

theorem Lives.proceeds_leave (hlives : l.Lives) (h : l.WellKept) {call : Nat}
    {state : CallState} {st : CallStep}
    (hst : ∀ method params, st ≠ .start method params)
    (hcall : (call, .underway) ∈ l.calls)
    (hstate : ∀ reply, state = .finished reply →
      l.connection.reply? call = some reply) :
    (l.leave call state).Lives ∧ Proceeds l (l.leave call state) st := by
  have hown : ∀ other ∈ l.connection.pending, number other = number call →
      other = call :=
    fun other hother => h.number_inj (h.bounds hcall).2 (h.slot_bounds hother).2
  unfold leave
  rw [Connection.release_of_own hown]
  exact ⟨hlives, .leaves call state hst hstate rfl rfl rfl⟩

theorem Lives.proceeds_rest (hlives : l.Lives) {st : CallStep}
    (hst : ∀ method params, st ≠ .start method params) :
    l.Lives ∧ Proceeds l l st :=
  ⟨hlives, .rests [] hst (fun _ hm =>
    nomatch hm) rfl (List.append_nil _).symm rfl⟩

theorem Lives.proceeds_resume (hlives : l.Lives) (h : l.WellKept) (call : Nat) :
    (l.resume call).Lives ∧ Proceeds l (l.resume call) (.resume call) := by
  unfold resume
  split
  · next reply hunderway hreply =>
      rw [isUnderway_iff] at hunderway
      refine hlives.proceeds_leave h (by simp) hunderway ?_
      rintro _ ⟨⟩
      exact hreply
  · exact hlives.proceeds_rest (by simp)

theorem Lives.proceeds_timeOut (hlives : l.Lives) (h : l.WellKept)
    (call : Nat) :
    (l.timeOut call).Lives ∧ Proceeds l (l.timeOut call) (.timeOut call) := by
  unfold timeOut
  split
  · next hunderway _ =>
      rw [isUnderway_iff] at hunderway
      exact hlives.proceeds_leave h (by simp) hunderway (by simp)
  · exact hlives.proceeds_rest (by simp)

theorem Lives.proceeds_drop (hlives : l.Lives) (h : l.WellKept) (call : Nat) :
    (l.drop call).Lives ∧ Proceeds l (l.drop call) (.drop call) := by
  unfold drop
  split
  · next hunderway =>
      rw [isUnderway_iff] at hunderway
      exact hlives.proceeds_leave h (by simp) hunderway (by simp)
  · exact hlives.proceeds_rest (by simp)

theorem Lives.proceeds_notify (hlives : l.Lives) (method : String)
    (params : Json) :
    (l.step (.notify method params)).Lives ∧
      Proceeds l (l.step (.notify method params)) (.notify method params) := by
  have hstep : l.step (.notify method params) =
      { l with connection := { l.connection with
      wire := l.connection.wire ++ [.notification method params] } } := by
    show { l with connection := (l.connection.write _).2 } = _
    rcases Connection.write_cases l.connection
        (.notification method params) with
      ⟨-, -, heq⟩ | ⟨-, hbroken, -⟩ | ⟨hclosed, -⟩
    · rw [heq]
    · exact nomatch hlives.2.symm.trans hbroken
    · exact nomatch hlives.1.symm.trans hclosed
  rw [hstep]
  refine ⟨hlives, .rests [.notification method params] (by simp) ?_ rfl rfl rfl⟩
  intro m hm
  rw [List.mem_singleton.mp hm]
  rfl

theorem Lives.proceeds_step (hlives : l.Lives) (h : l.WellKept) {st : CallStep}
    (hbreak : st ≠ .breakPipe) (hclose : st ≠ .close)
    (hfew : ∀ method params, st = .start method params →
      l.calls.length + 1 ≤ Numeral.max64) :
    (l.step st).Lives ∧ Proceeds l (l.step st) st := by
  cases st with
  | start method params =>
      exact hlives.proceeds_start h (hfew method params rfl) method params
  | dispatch frame =>
      exact hlives.proceeds_dispatch frame
  | resume call =>
      exact hlives.proceeds_resume h call
  | timeOut call =>
      exact hlives.proceeds_timeOut h call
  | drop call =>
      exact hlives.proceeds_drop h call
  | notify method params =>
      exact hlives.proceeds_notify method params
  | breakPipe =>
      exact absurd rfl hbreak
  | close =>
      exact absurd rfl hclose

theorem Proceeds.length_eq {l' : CallLedger} {st : CallStep}
    (h : Proceeds l l' st) :
    ((∃ method params, st = .start method params) ∧
      l'.calls.length = l.calls.length + 1) ∨
      ((∀ method params, st ≠ .start method params) ∧
        l'.calls.length = l.calls.length) := by
  cases h with
  | starts method params hst hcalls =>
      exact .inl ⟨⟨method, params, hst⟩,
        by rw [hcalls, List.length_append]; rfl⟩
  | answers call frame outcome hst _ _ hcalls =>
      exact .inr ⟨by simp [hst], by rw [hcalls]⟩
  | leaves call state hst _ hcalls =>
      exact .inr ⟨hst, by rw [hcalls, List.length_map]⟩
  | rests sent hst _ hcalls =>
      exact .inr ⟨hst, by rw [hcalls]⟩

/-! # Where replies come from -/

section Origin

variable {l' : CallLedger} {st : CallStep}

/-- A new reply is what a response brought. -/
theorem Proceeds.reply_origin (h : Proceeds l l' st) {call : Nat}
    {reply : Reply} (hsome : l'.connection.reply? call = some reply) :
    l.connection.reply? call = some reply ∨
      ∃ frame outcome, st = .dispatch frame ∧ call ∈ l.connection.pending ∧
        Incoming.classify frame = .response (number call) outcome ∧
        reply = outcome.mapError .server := by
  cases h with
  | starts method params hst hcalls hwire hreplies =>
      exact .inl (by rwa [reply?_of_same hreplies] at hsome)
  | answers taken frame outcome hst hframe hslot hcalls hwire hreplies =>
      rw [Connection.reply?_of_append hreplies, Option.or_eq_some_iff] at hsome
      rcases hsome with hsome | ⟨-, hsome⟩
      · exact .inl hsome
      · by_cases htaken : taken = call
        · subst htaken
          exact .inr ⟨frame, outcome, hst, hslot, hframe,
            by simpa using hsome.symm⟩
        · simp [htaken] at hsome
  | leaves gone state hst hstate hcalls hwire hreplies =>
      rw [reply?_of_filter hreplies] at hsome
      by_cases hgone : call = gone
      · simp [hgone] at hsome
      · rw [if_neg hgone] at hsome
        exact .inl hsome
  | rests sent hst hsent hcalls hwire hreplies =>
      exact .inl (by rwa [reply?_of_same hreplies] at hsome)

theorem Proceeds.finished_origin (h : Proceeds l l' st) {call : Nat}
    {reply : Reply} (hfinished : (call, .finished reply) ∈ l'.calls) :
    (call, .finished reply) ∈ l.calls ∨
    l.connection.reply? call = some reply := by
  cases h with
  | starts method params hst hcalls =>
      rw [hcalls, List.mem_append, List.mem_singleton] at hfinished
      rcases hfinished with hfinished | heq
      · exact .inl hfinished
      · exact CallState.noConfusion (Prod.mk.inj heq).2
  | answers _ _ _ _ _ _ hcalls =>
      exact .inl (hcalls ▸ hfinished)
  | leaves gone state hst hstate hcalls =>
      rw [mem_calls_of_map hcalls] at hfinished
      rcases hfinished with ⟨-, hfinished⟩ | ⟨rfl, hstate', -⟩
      · exact .inl hfinished
      · exact .inr (hstate reply hstate'.symm)
  | rests _ _ _ hcalls =>
      exact .inl (hcalls ▸ hfinished)

theorem Proceeds.request_origin (h : Proceeds l l' st) {n : Nat}
    {method : String} {params : Json}
    (hm : .request n method params ∈ l'.connection.wire) :
    .request n method params ∈ l.connection.wire ∨
      (st = .start method params ∧ n = number l.connection.nextCall) := by
  cases h with
  | starts method' params' hst hcalls hwire =>
      rw [hwire, List.mem_append, List.mem_singleton] at hm
      rcases hm with hm | heq
      · exact .inl hm
      · obtain ⟨rfl, rfl, rfl⟩ := Message.request.inj heq
        exact .inr ⟨hst, rfl⟩
  | answers _ _ _ _ _ _ _ hwire =>
      exact .inl (hwire ▸ hm)
  | leaves _ _ _ _ _ hwire =>
      exact .inl (hwire ▸ hm)
  | rests sent hst hsent hcalls hwire =>
      rw [hwire, List.mem_append] at hm
      rcases hm with hm | hm
      · exact .inl hm
      · exact nomatch hsent _ hm

end Origin

end CallLedger
end CodeIntel
