import CodeIntel.Proofs.Connection.Ledger
import Mathlib.Data.List.Induction

/-!
# Calls end with their first answer

A call that ends with an outcome of the server ends with the first one that
arrived for it while it waited. The history of a run is needed to say so:
`Traced` ties what the ledger holds to the frames that were dispatched before.
-/

namespace CodeIntel

open Connection (number)

namespace CallLedger

/-! # Where replies come from -/

section Origin

variable {l l' : CallLedger} {st : CallStep}

theorem Moves.length_le (hmoves : Moves l l' st) :
    l.calls.length ≤ l'.calls.length := by
  cases hmoves with
  | rests hcalls => simp [hcalls]
  | closes hcalls => simp [hcalls]
  | starts hcalls => simp [hcalls]
  | fails hcalls => simp [hcalls]
  | answers _ _ _ _ _ _ hcalls => simp [hcalls]
  | leaves _ _ _ _ _ hcalls => simp [hcalls]

theorem Moves.slot_origin (hmoves : Moves l l' st) {call : Nat}
    (hslot : call ∈ l'.connection.pending) :
    call ∈ l.connection.pending ∨ call = l.connection.nextCall := by
  cases hmoves with
  | rests hcalls hnext hpending =>
      exact Or.inl (hpending ▸ hslot)
  | closes hcalls hnext hpending =>
      rw [hpending] at hslot
      exact nomatch hslot
  | starts hcalls hnext hpending =>
      rw [hpending, List.mem_cons] at hslot
      exact hslot.symm
  | fails hcalls hnext hpending =>
      rw [hpending] at hslot
      exact nomatch hslot
  | answers taken frame outcome hst hframe htaken hcalls hnext hpending =>
      rw [hpending] at hslot
      exact Or.inl (List.mem_filter.mp hslot).1
  | leaves gone state hcall hended hstate hcalls hnext hpending =>
      rw [hpending] at hslot
      exact Or.inl (List.mem_filter.mp hslot).1

/-- A new reply is an answer to a call that waits, or tells that the connection
is gone. -/
theorem Moves.reply_origin (hmoves : Moves l l' st) {call : Nat} {reply : Reply}
    (hsome : l'.connection.reply? call = some reply) :
    l.connection.reply? call = some reply ∨ reply = .error .connectionClosed ∨
      ∃ frame outcome, st = .dispatch frame ∧ call ∈ l.connection.pending ∧
        Incoming.classify frame = .response (number call) outcome ∧
        reply = outcome.mapError .server := by
  cases hmoves with
  | rests hcalls hnext hpending hreplies =>
      exact Or.inl (by rwa [reply?_of_same hreplies] at hsome)
  | closes hcalls hnext hpending hreplies =>
      rw [Connection.reply?_of_failures hreplies] at hsome
      rcases replyOrFailure_eq_some hsome with hsome | ⟨-, rfl⟩
      · exact Or.inl hsome
      · exact Or.inr (Or.inl rfl)
  | starts hcalls hnext hpending hreplies =>
      exact Or.inl (by rwa [reply?_of_same hreplies] at hsome)
  | fails hcalls hnext hpending hreplies =>
      rw [Connection.reply?_of_failures hreplies] at hsome
      rcases replyOrFailure_eq_some hsome with hsome | ⟨-, rfl⟩
      · exact Or.inl hsome
      · exact Or.inr (Or.inl rfl)
  | answers taken frame outcome hst hframe hslot hcalls hnext hpending
        hreplies =>
      rw [Connection.reply?_of_append hreplies, Option.or_eq_some_iff] at hsome
      rcases hsome with hsome | ⟨-, hsome⟩
      · exact Or.inl hsome
      · by_cases htaken : taken = call
        · subst htaken
          refine Or.inr (Or.inr ⟨frame, outcome, hst, hslot, hframe, ?_⟩)
          simpa using hsome.symm
        · simp [htaken] at hsome
  | leaves gone state hcall hended hstate hcalls hnext hpending hreplies =>
      rw [reply?_of_filter hreplies] at hsome
      by_cases hgone : call = gone
      · simp [hgone] at hsome
      · rw [if_neg hgone] at hsome
        exact Or.inl hsome

theorem Moves.finished_origin (hmoves : Moves l l' st) {call : Nat}
    {reply : Reply} (hfinished : (call, .finished reply) ∈ l'.calls) :
    (call, .finished reply) ∈ l.calls ∨ l.connection.reply? call = some reply ∨
      reply = .error .disconnected := by
  cases hmoves with
  | rests hcalls =>
      exact Or.inl (hcalls ▸ hfinished)
  | closes hcalls =>
      exact Or.inl (hcalls ▸ hfinished)
  | starts hcalls =>
      rw [hcalls, List.mem_append, List.mem_singleton] at hfinished
      rcases hfinished with hfinished | heq
      · exact Or.inl hfinished
      · exact CallState.noConfusion (Prod.mk.inj heq).2
  | fails hcalls =>
      rw [hcalls, List.mem_append, List.mem_singleton] at hfinished
      rcases hfinished with hfinished | heq
      · exact Or.inl hfinished
      · exact Or.inr (Or.inr (CallState.finished.inj (Prod.mk.inj heq).2))
  | answers _ _ _ _ _ _ hcalls =>
      exact Or.inl (hcalls ▸ hfinished)
  | leaves gone state hcall hended hstate hcalls =>
      rw [mem_calls_of_map hcalls] at hfinished
      rcases hfinished with ⟨-, hfinished⟩ | ⟨rfl, hstate', -⟩
      · exact Or.inl hfinished
      · exact Or.inr (Or.inl (hstate reply hstate'.symm))

theorem WellKept.dispatch_answer (h : l.WellKept) {call : Nat}
    (hwaits : l.Waits call) {frame : Json} {outcome : Outcome}
    (hframe : Incoming.classify frame = .response (number call) outcome) :
    l.step (.dispatch frame) =
      { l with connection := { l.connection with
          pending := l.connection.pending.filter (· ≠ call)
          replies :=
  l.connection.replies ++ [(call, outcome.mapError .server)] } } := by
  have hslot := (h.slot call).mpr hwaits
  show { l with connection := l.connection.dispatch frame } = _
  rw [Connection.dispatch_response hframe]
  rcases Connection.complete_cases l.connection (number call) outcome with
    ⟨taken, htaken, hnumber, heq⟩ | ⟨hnone, -⟩
  · obtain rfl : taken = call :=
      h.number_inj (h.slot_bounds hslot).2 (h.slot_bounds htaken).2 hnumber
    rw [heq]
  · exact absurd rfl (hnone call hslot)

theorem WellKept.reply?_answer (h : l.WellKept) {call : Nat}
    (hwaits : l.Waits call) {frame : Json} {outcome : Outcome}
    (hframe : Incoming.classify frame = .response (number call) outcome) :
    (l.step (.dispatch frame)).connection.reply? call =
      some (outcome.mapError .server) := by
  have hreplies : (l.step (.dispatch frame)).connection.replies =
      l.connection.replies ++ [(call, outcome.mapError .server)] := by
    rw [h.dispatch_answer hwaits hframe]
  rw [Connection.reply?_of_append hreplies, hwaits.2]
  simp

theorem WellKept.dispatch_stray (h : l.WellKept) {frame : Json} {id : Nat}
    {outcome : Outcome}
    (hframe : Incoming.classify frame = .response id outcome)
    (hstray : ∀ call, l.Waits call → number call ≠ id) :
    l.step (.dispatch frame) = l := by
  show { l with connection := l.connection.dispatch frame } = _
  rw [Connection.dispatch_response hframe]
  rcases Connection.complete_cases l.connection id outcome with
    ⟨taken, htaken, hnumber, -⟩ | ⟨-, heq⟩
  · exact absurd hnumber (hstray taken ((h.slot taken).mp htaken))
  · rw [heq]

end Origin

/-! # Runs -/

/-- A response arrived for a call while the call waited. -/
def Answered (steps : List CallStep) (call : Nat) (outcome : Outcome) : Prop :=
  ∃ before frame after, steps = before ++ .dispatch frame :: after ∧
    (run {} before).Waits call ∧
    Incoming.classify frame = .response (number call) outcome

/-- The first response that arrived for a call while the call waited. -/
def FirstAnswered (steps : List CallStep) (call : Nat) (outcome : Outcome) :
    Prop :=
  ∃ before frame after, steps = before ++ .dispatch frame :: after ∧
    (run {} before).Waits call ∧
    Incoming.classify frame = .response (number call) outcome ∧
    ∀ earlier, ¬ Answered before call earlier

theorem FirstAnswered.append {steps : List CallStep} {call : Nat}
    {outcome : Outcome} (h : FirstAnswered steps call outcome)
    (more : List CallStep) :
    FirstAnswered (steps ++ more) call outcome := by
  obtain ⟨before, frame, after, rfl, hrest⟩ := h
  exact ⟨before, frame, after ++ more, by simp, hrest⟩

theorem Answered.of_snoc {steps : List CallStep} {st : CallStep} {call : Nat}
    {outcome : Outcome} (h : Answered (steps ++ [st]) call outcome) :
    Answered steps call outcome ∨
      ∃ frame, st = .dispatch frame ∧ (run {} steps).Waits call ∧
        Incoming.classify frame = .response (number call) outcome := by
  obtain ⟨before, frame, after, heq, hwaits, hframe⟩ := h
  rcases List.eq_nil_or_concat after with rfl | ⟨after, last, rfl⟩
  · obtain ⟨rfl, hst⟩ := List.append_inj' heq rfl
    exact Or.inr ⟨frame, (List.cons.inj hst).1, hwaits, hframe⟩
  · have hsplit :
        steps ++ [st] = (before ++ .dispatch frame :: after) ++ [last] := by
      simpa using heq
    obtain ⟨hsteps, -⟩ := List.append_inj' hsplit rfl
    exact Or.inl ⟨before, frame, after, hsteps, hwaits, hframe⟩

/-- What a call may end with after some steps, short of giving up. -/
def Earned (steps : List CallStep) (call : Nat) (reply : Reply) : Prop :=
  reply = .error .connectionClosed ∨ reply = .error .disconnected ∨
    ∃ outcome, reply = outcome.mapError .server ∧
    FirstAnswered steps call outcome

theorem Earned.append {steps : List CallStep} {call : Nat} {reply : Reply}
    (h : Earned steps call reply) (more : List CallStep) :
    Earned (steps ++ more) call reply := by
  rcases h with h | h | ⟨outcome, hreply, hfirst⟩
  · exact Or.inl h
  · exact Or.inr (Or.inl h)
  · exact Or.inr (Or.inr ⟨outcome, hreply, hfirst.append more⟩)

/-- What holds after some steps. -/
structure Traced (steps : List CallStep) : Prop where
  kept : (run {} steps).WellKept
  issued : ∀ call outcome, Answered steps call outcome →
    call ≤ (run {} steps).calls.length
  unanswered :
    ∀ call, (run {} steps).Waits call → ∀ outcome, ¬ Answered steps call outcome
  replied : ∀ call reply, (run {} steps).connection.reply? call = some reply →
    Earned steps call reply
  finished : ∀ call reply, (call, .finished reply) ∈ (run {} steps).calls →
    Earned steps call reply

theorem traced_nil : Traced [] := by
  have hnone (call : Nat) : ¬ ∃ outcome, Answered [] call outcome := by
    rintro ⟨outcome, before, frame, after, heq, -⟩
    simp at heq
  constructor
  · constructor
    · rfl
    · rfl
    · exact Nat.zero_le _
    · exact List.nodup_nil
    · intro call
      constructor
      · exact fun h => nomatch h
      · exact fun h => nomatch h.1
    · exact fun call reply h => nomatch h
  · exact fun call outcome h => absurd ⟨outcome, h⟩ (hnone call)
  · exact fun call h => nomatch h.1
  · exact fun call reply h => nomatch h
  · exact fun call reply h => nomatch h

theorem Traced.snoc {steps : List CallStep} (h : Traced steps) {st : CallStep}
    (hfew : (run {} (steps ++ [st])).calls.length ≤ Numeral.max64) :
    Traced (steps ++ [st]) := by
  have hrun := run_snoc {} steps st
  have hmoves : Moves (run {} steps) (run {} (steps ++ [st])) st := by
    rw [hrun] at hfew ⊢
    exact h.kept.moves_step hfew
  have hkept := h.kept.of_moves hmoves hfew
  have hreplied (call : Nat) (reply : Reply)
      (hsome : (run {} steps).connection.reply? call = some reply) :
      Earned (steps ++ [st]) call reply :=
    (h.replied call reply hsome).append [st]
  constructor
  · exact hkept
  · intro call outcome hanswered
    refine Nat.le_trans ?_ hmoves.length_le
    rcases hanswered.of_snoc with hbefore | ⟨frame, -, hwaits, -⟩
    · exact h.issued call outcome hbefore
    · exact (h.kept.bounds hwaits.1).2
  · intro call hwaits outcome hanswered
    have hslot := (hkept.slot call).mpr hwaits
    rcases hanswered.of_snoc with hbefore | ⟨frame, rfl, hwaited, hframe⟩
    · rcases hmoves.slot_origin hslot with hslot' | rfl
      · exact h.unanswered call ((h.kept.slot call).mp hslot') outcome hbefore
      -- the call is new, and what was answered before had been given its number
      -- before
      · have hle := h.issued _ outcome hbefore
        have hnext := h.kept.next
        omega
    · rw [hrun, h.kept.dispatch_answer hwaited hframe] at hslot
      simp at hslot
  · intro call reply hsome
    rcases hmoves.reply_origin hsome with
      hsome | hclosed | ⟨frame, outcome, rfl, hslot, hframe, rfl⟩
    · exact hreplied call reply hsome
    · exact Or.inl hclosed
    · have hwaits := (h.kept.slot call).mp hslot
      exact Or.inr (Or.inr ⟨outcome, rfl, steps, frame, [], rfl, hwaits, hframe,
        h.unanswered call hwaits⟩)
  · intro call reply hfinished
    rcases hmoves.finished_origin hfinished with
      hfinished | hsome | hdisconnected
    · exact (h.finished call reply hfinished).append [st]
    · exact hreplied call reply hsome
    · exact Or.inr (Or.inl hdisconnected)

/-! # Numbers on the wire -/

def numbers (l : CallLedger) : List Nat :=
  l.calls.map fun e => number e.1

def requestId? : Message → Option Nat
  | .request id _ _ => some id
  | _ => none

def sent (l : CallLedger) : List Nat :=
  l.connection.wire.filterMap requestId?

theorem sent_of_write (l : CallLedger) {m : Message}
    (hm : requestId? m = none) :
    sent { l with connection := (l.connection.write m).2 } = l.sent := by
  rcases Connection.write_cases l.connection m with
    ⟨-, -, heq⟩ | ⟨-, -, heq⟩ | ⟨-, heq⟩
  · simp [heq, sent, hm]
  · simp [heq, sent]
  · rw [heq]

theorem sent_dispatch (l : CallLedger) (frame : Json) :
    (l.step (.dispatch frame)).sent = l.sent := by
  show sent { l with connection := l.connection.dispatch frame } = _
  unfold Connection.dispatch
  split
  · simp [sent]
  · rfl
  · refine sent_of_write l ?_
    unfold Connection.response
    split <;> rfl
  · rfl

theorem leave_frame (l : CallLedger) (call : Nat) (state : CallState) :
    (l.leave call state).numbers = l.numbers ∧
    (l.leave call state).sent = l.sent := by
  constructor
  · unfold leave numbers
    rw [List.map_map]
    refine List.map_congr_left fun e _ => ?_
    by_cases he : e.1 = call
    · simp [he]
    · simp [he]
  · simp [leave, sent]

theorem start_numbers (l : CallLedger) (method : String) (params : Json) :
    ∃ new, (l.start method params).numbers = l.numbers ++ new ∧
      ((l.start method params).sent = l.sent ++ new ∨
        (l.start method params).sent = l.sent) := by
  unfold start
  rcases Connection.startCall_cases l.connection method params with
    ⟨-, -, heq⟩ | ⟨-, -, heq⟩ | ⟨-, heq⟩
  · rw [heq]
    refine ⟨[number l.connection.nextCall], by simp [numbers], Or.inl ?_⟩
    simp [sent, requestId?, Connection.nextRequest]
  · rw [heq]
    have hne :
        (l.connection.entered.close.release l.connection.nextCall).nextCall ≠
        l.connection.nextCall := by
      simp
    simp only [if_neg hne]
    exact ⟨[number l.connection.nextCall], by simp [numbers],
      Or.inr (by simp [sent])⟩
  · rw [heq]
    simp only [if_true]
    exact ⟨[], (List.append_nil _).symm, Or.inr trivial⟩

/-- Each step gives out numbers to new calls alone, and writes no request under
another number. -/
theorem step_numbers (l : CallLedger) (st : CallStep) :
    ∃ new, (l.step st).numbers = l.numbers ++ new ∧
      ((l.step st).sent = l.sent ++ new ∨ (l.step st).sent = l.sent) := by
  have hleave (call : Nat) (state : CallState) :
      ∃ new, (l.leave call state).numbers = l.numbers ++ new ∧
        ((l.leave call state).sent = l.sent ++ new ∨
          (l.leave call state).sent = l.sent) := by
    obtain ⟨hnumbers, hsent⟩ := leave_frame l call state
    exact ⟨[], by rw [hnumbers, List.append_nil], Or.inr hsent⟩
  have hnil : l.numbers = l.numbers ++ [] := (List.append_nil _).symm
  cases st with
  | start method params =>
      exact start_numbers l method params
  | dispatch frame =>
      exact ⟨[], hnil, Or.inr (sent_dispatch l frame)⟩
  | resume call =>
      show ∃ new, (l.resume call).numbers = _ ∧
        ((l.resume call).sent = _ ∨ (l.resume call).sent = _)
      unfold resume
      split
      · exact hleave call _
      · exact ⟨[], hnil, Or.inr rfl⟩
  | timeOut call =>
      show ∃ new, (l.timeOut call).numbers = _ ∧
        ((l.timeOut call).sent = _ ∨ (l.timeOut call).sent = _)
      unfold timeOut
      split
      · exact hleave call _
      · exact ⟨[], hnil, Or.inr rfl⟩
  | drop call =>
      show ∃ new, (l.drop call).numbers = _ ∧
        ((l.drop call).sent = _ ∨ (l.drop call).sent = _)
      unfold drop
      split
      · exact hleave call _
      · exact ⟨[], hnil, Or.inr rfl⟩
  | notify method params =>
      exact ⟨[], hnil, Or.inr (sent_of_write l rfl)⟩
  | breakPipe =>
      exact ⟨[], hnil, Or.inr rfl⟩
  | close =>
      exact ⟨[], hnil, Or.inr (by simp [step, sent])⟩

theorem length_numbers (l : CallLedger) : l.numbers.length = l.calls.length :=
  List.length_map _

theorem run_length_le (steps : List CallStep) (st : CallStep) :
    (run {} steps).calls.length ≤ (run {} (steps ++ [st])).calls.length := by
  obtain ⟨new, hnumbers, -⟩ := step_numbers (run {} steps) st
  rw [run_snoc, ← length_numbers, ← length_numbers, hnumbers,
    List.length_append]
  exact Nat.le_add_right _ _

theorem sent_sublist (steps : List CallStep) :
    (run {} steps).sent.Sublist (run {} steps).numbers := by
  induction steps using List.reverseRecOn with
  | nil =>
      exact List.Sublist.refl _
  | append_singleton steps st ih =>
      obtain ⟨new, hnumbers, hsent⟩ := step_numbers (run {} steps) st
      rw [run_snoc, hnumbers]
      rcases hsent with hsent | hsent
      · rw [hsent]
        exact ih.append_right new
      · rw [hsent]
        exact ih.trans (List.sublist_append_left _ _)

/-! # Every run -/

theorem traced (steps : List CallStep)
    (hfew : (run {} steps).calls.length ≤ Numeral.max64) : Traced steps := by
  induction steps using List.reverseRecOn with
  | nil =>
      exact traced_nil
  | append_singleton steps st ih =>
      exact (ih (Nat.le_trans (run_length_le steps st) hfew)).snoc hfew

theorem WellKept.numbers_nodup {l : CallLedger} (h : l.WellKept) :
    l.numbers.Nodup := by
  have hsame : l.numbers = l.calls.map Prod.fst := by
    refine List.map_congr_left fun e he => ?_
    exact Connection.number_of_le (Nat.le_trans (h.bounds he).2 h.few)
  rw [hsame, h.listed]
  exact List.nodup_range'

theorem WellKept.slots_nodup {l : CallLedger} (h : l.WellKept) :
    (l.connection.pending.map number).Nodup := by
  refine List.Nodup.map_on ?_ h.nodup
  intro call hcall other hother heq
  exact h.number_inj (h.slot_bounds hother).2 (h.slot_bounds hcall).2 heq

theorem mapError_server_inj {outcome other : Outcome}
    (h : outcome.mapError ClientFault.server =
      other.mapError ClientFault.server) :
    outcome = other := by
  cases outcome with
  | ok v =>
      cases other with
      | ok w => cases h; rfl
      | error e => cases h
  | error e =>
      cases other with
      | ok w => cases h
      | error f => cases h; rfl

theorem mapError_server_ne (outcome : Outcome) {f : ClientFault}
    (hf : ∀ e, f ≠ .server e) :
    outcome.mapError ClientFault.server ≠ .error f := by
  intro h
  cases outcome with
  | ok v => cases h
  | error e => exact hf e (Except.error.inj h).symm

/-- As long as fewer than 2^64 calls were given a number, no two of them share
one; the slots are those of the calls that wait; a call that ends with an
outcome of the server ends with the first one that arrived under its number
while it waited; and any other response changes nothing. -/
theorem calls_end_with_first_answer (steps : List CallStep)
    (hfew : (run {} steps).calls.length < Nat.pow 2 64) :
    let l := run {} steps
    (l.numbers.Nodup ∧ l.sent.Sublist l.numbers) ∧
    ((l.connection.pending.map number).Nodup ∧
      ∀ id, id ∈ l.connection.pending.map number ↔ ∃ call, l.Waits call ∧
      number call = id) ∧
    (∀ call outcome, (call, .finished (outcome.mapError .server)) ∈ l.calls →
      FirstAnswered steps call outcome) ∧
    (∀ call frame outcome, l.Waits call →
      Incoming.classify frame = .response (number call) outcome →
      (l.step (.dispatch frame)).connection.reply? call =
        some (outcome.mapError .server)) ∧
    (∀ id frame outcome, Incoming.classify frame = .response id outcome →
      (∀ call, l.Waits call → number call ≠ id) →
      l.step (.dispatch frame) = l) := by
  have htraced :=
    traced steps (Nat.le_of_lt_succ (by rw [Numeral.max64]; exact hfew))
  have hkept := htraced.kept
  refine ⟨⟨hkept.numbers_nodup, sent_sublist steps⟩, ⟨hkept.slots_nodup, ?_⟩,
    ?_, ?_, ?_⟩
  · intro id
    simp only [List.mem_map, hkept.slot]
  · intro call outcome hfinished
    rcases htraced.finished call _ hfinished with
      hreply | hreply | ⟨first, hreply, hfirst⟩
    · exact absurd hreply (mapError_server_ne outcome (by simp))
    · exact absurd hreply
        (mapError_server_ne outcome (by simp [ClientFault.disconnected]))
    · rwa [mapError_server_inj hreply]
  · intro call frame outcome hwaits hframe
    exact hkept.reply?_answer hwaits hframe
  · intro id frame outcome hframe hstray
    exact hkept.dispatch_stray hframe hstray

def answerFrame (id : Nat) (result : String) : Json :=
  Json.ofMembers [("id", .ofNat id), ("result", .str result)]

/-- Two calls that are answered the other way round, one of them twice. -/
def crossedCalls : List CallStep :=
  [.start "a" .null, .start "b" .null, .dispatch (answerFrame 2 "second"),
    .dispatch (answerFrame 1 "first"), .dispatch (answerFrame 2 "again"),
    .resume 1, .resume 2]

theorem run_crossedCalls :
    (run {} crossedCalls).calls =
      [(1, .finished (.ok (.str "first"))),
        (2, .finished (.ok (.str "second")))] := by
  rfl

theorem crossed_calls_end_with_first_answer :
    (run {} crossedCalls).calls.length < Nat.pow 2 64 ∧
      FirstAnswered crossedCalls 2 (.ok (.str "second")) := by
  have hfew : (run {} crossedCalls).calls.length < Nat.pow 2 64 := by
    rw [run_crossedCalls]
    decide
  have hfinished : (2, CallState.finished (.ok (.str "second"))) ∈
      (run {} crossedCalls).calls := by
    rw [run_crossedCalls]
    simp
  exact ⟨hfew,
    (calls_end_with_first_answer crossedCalls hfew).2.2.1 2 _ hfinished⟩

end CallLedger

end CodeIntel
