import CodeIntel.Proofs.Connection.Slots
import Mathlib.Data.List.Nodup

/-!
# A ledger of calls

Calls run side by side on one connection, their steps in any order. Each call
that was given a number is listed with what has become of it. As long as the
numbers do not wrap around, the slots of the connection are those of the calls
that wait.

What a step does is said once, by `Moves`; the invariant `WellKept` is read off
from that.
-/

namespace CodeIntel

open Connection (number failure)

/-- What has become of a call. -/
inductive CallState where
  | underway
  | finished (reply : Reply)
  | timedOut
  | dropped

namespace CallState

def isUnderway : CallState → Bool
  | .underway => true
  | _ => false

end CallState

/-- A connection, and the calls that were given a number. -/
structure CallLedger where
  connection : Connection := {}
  calls : List (Nat × CallState) := []

inductive CallStep where
  | start (method : String) (params : Json)
  | dispatch (frame : Json)
  | resume (call : Nat)
  | timeOut (call : Nat)
  | drop (call : Nat)
  | notify (method : String) (params : Json)
  | breakPipe
  | close

namespace CallLedger

def isUnderway (l : CallLedger) (call : Nat) : Bool :=
  l.calls.any fun e => e.1 = call && e.2.isUnderway

def Waits (l : CallLedger) (call : Nat) : Prop :=
  (call, .underway) ∈ l.calls ∧ l.connection.reply? call = none

/-- Starts a call. A call that is refused at once is given no number. -/
def start (l : CallLedger) (method : String) (params : Json) : CallLedger :=
  match l.connection.startCall method params with
  | (.ok call, c) =>
    { connection := c, calls := l.calls ++ [(call, .underway)] }
  | (.error f, c) =>
    if c.nextCall = l.connection.nextCall then { l with connection := c }
    else
      { connection := c
        calls := l.calls ++ [(l.connection.nextCall, .finished (.error f))] }

def leave (l : CallLedger) (call : Nat) (state : CallState) : CallLedger :=
  { connection := l.connection.release call
    calls := l.calls.map fun e => if e.1 = call then (call, state) else e }

def resume (l : CallLedger) (call : Nat) : CallLedger :=
  match l.isUnderway call, l.connection.reply? call with
  | true, some reply => l.leave call (.finished reply)
  | _, _ => l

/-- A call gives up when its time is over, unless its reply has come. -/
def timeOut (l : CallLedger) (call : Nat) : CallLedger :=
  match l.isUnderway call, l.connection.reply? call with
  | true, none => l.leave call .timedOut
  | _, _ => l

def drop (l : CallLedger) (call : Nat) : CallLedger :=
  if l.isUnderway call then l.leave call .dropped else l

def step (l : CallLedger) : CallStep → CallLedger
  | .start method params => l.start method params
  | .dispatch frame => { l with connection := l.connection.dispatch frame }
  | .resume call => l.resume call
  | .timeOut call => l.timeOut call
  | .drop call => l.drop call
  | .notify method params =>
    { l with connection := (l.connection.notify method params).2 }
  | .breakPipe => { l with connection := l.connection.breakPipe }
  | .close => { l with connection := l.connection.close }

def run (l : CallLedger) (steps : List CallStep) : CallLedger :=
  steps.foldl step l

theorem run_snoc (l : CallLedger) (steps : List CallStep) (st : CallStep) :
    l.run (steps ++ [st]) = (l.run steps).step st := by
  rw [run, List.foldl_append]
  rfl

theorem isUnderway_iff (l : CallLedger) (call : Nat) :
    l.isUnderway call = true ↔ (call, .underway) ∈ l.calls := by
  rw [isUnderway, List.any_eq_true]
  constructor
  · rintro ⟨⟨other, state⟩, hmem, h⟩
    cases state with
    | underway =>
        obtain rfl : other = call := by simpa [CallState.isUnderway] using h
        exact hmem
    | finished reply =>
        simp [CallState.isUnderway] at h
    | timedOut =>
        simp [CallState.isUnderway] at h
    | dropped =>
        simp [CallState.isUnderway] at h
  · intro hmem
    exact ⟨_, hmem, by simp [CallState.isUnderway]⟩

/-! # The slots are those of the calls that wait -/

/-- What holds between two steps. Calls are listed in the order of their
numbers. -/
structure WellKept (l : CallLedger) : Prop where
  listed : l.calls.map Prod.fst = List.range' 1 l.calls.length
  next : l.connection.nextCall = l.calls.length + 1
  few : l.calls.length ≤ Numeral.max64
  nodup : l.connection.pending.Nodup
  slot : ∀ call, call ∈ l.connection.pending ↔ l.Waits call
  owned : ∀ call reply, l.connection.reply? call = some reply →
    (call, .underway) ∈ l.calls

/-- What a step does to the calls, to the slots and to the replies. -/
inductive Moves (l l' : CallLedger) (st : CallStep) : Prop where
  | rests (hcalls : l'.calls = l.calls)
      (hnext : l'.connection.nextCall = l.connection.nextCall)
      (hpending : l'.connection.pending = l.connection.pending)
      (hreplies : l'.connection.replies = l.connection.replies)
  | closes (hcalls : l'.calls = l.calls)
      (hnext : l'.connection.nextCall = l.connection.nextCall)
      (hpending : l'.connection.pending = [])
      (hreplies : l'.connection.replies =
        l.connection.replies ++ l.connection.pending.map failure)
  | starts (hcalls : l'.calls = l.calls ++ [(l.connection.nextCall, .underway)])
      (hnext : l'.connection.nextCall = l.connection.nextCall + 1)
      (hpending : l'.connection.pending =
        l.connection.nextCall :: l.connection.pending)
      (hreplies : l'.connection.replies = l.connection.replies)
  | fails (hcalls : l'.calls =
        l.calls ++ [(l.connection.nextCall, .finished (.error .disconnected))])
      (hnext : l'.connection.nextCall = l.connection.nextCall + 1)
      (hpending : l'.connection.pending = [])
      (hreplies : l'.connection.replies =
        l.connection.replies ++ l.connection.pending.map failure)
  | answers (call : Nat) (frame : Json) (outcome : Outcome)
      (hst : st = .dispatch frame)
      (hframe : Incoming.classify frame = .response (number call) outcome)
      (hslot : call ∈ l.connection.pending)
      (hcalls : l'.calls = l.calls)
      (hnext : l'.connection.nextCall = l.connection.nextCall)
      (hpending : l'.connection.pending =
        l.connection.pending.filter (· ≠ call))
      (hreplies : l'.connection.replies =
        l.connection.replies ++ [(call, outcome.mapError .server)])
  | leaves (call : Nat) (state : CallState)
      (hcall : (call, .underway) ∈ l.calls) (hended : state ≠ .underway)
      (hstate : ∀ reply, state = .finished reply →
        l.connection.reply? call = some reply)
      (hcalls : l'.calls = l.calls.map fun e =>
        if e.1 = call then (call, state) else e)
      (hnext : l'.connection.nextCall = l.connection.nextCall)
      (hpending : l'.connection.pending =
        l.connection.pending.filter (· ≠ call))
      (hreplies : l'.connection.replies = l.connection.replies.filter fun e =>
        e.1 ≠ call)

/-! ## What is listed -/

section Listed

variable {l : CallLedger} {call other : Nat} {state : CallState}

theorem WellKept.bounds (h : l.WellKept) (hcall : (call, state) ∈ l.calls) :
    1 ≤ call ∧ call ≤ l.calls.length := by
  have hmem : call ∈ l.calls.map Prod.fst := List.mem_map_of_mem hcall
  rw [h.listed, List.mem_range'_1] at hmem
  omega

theorem WellKept.slot_bounds (h : l.WellKept)
    (hslot : call ∈ l.connection.pending) :
    1 ≤ call ∧ call ≤ l.calls.length :=
  h.bounds ((h.slot call).mp hslot).1

theorem WellKept.number_inj (h : l.WellKept) (hcall : call ≤ l.calls.length)
    (hother : other ≤ l.calls.length) (heq : number other = number call) :
    other = call := by
  have hfew := h.few
  rwa [Connection.number_of_le (Nat.le_trans hother hfew),
    Connection.number_of_le (Nat.le_trans hcall hfew)] at heq

theorem WellKept.waits_not_next (h : l.WellKept) :
    ¬ l.Waits l.connection.nextCall := by
  intro hwaits
  have hbounds := h.bounds hwaits.1
  rw [h.next] at hbounds
  omega

theorem WellKept.next_no_reply (h : l.WellKept) :
    ∀ e ∈ l.connection.replies, e.1 ≠ l.connection.nextCall := by
  intro e he heq
  have hsome : (l.connection.reply? e.1).isSome = true := by
    rw [Connection.reply?_eq_find?, Option.isSome_map, List.find?_isSome]
    exact ⟨e, he, by simp⟩
  obtain ⟨reply, hreply⟩ := Option.isSome_iff_exists.mp hsome
  have hbounds := h.bounds (h.owned e.1 reply hreply)
  rw [heq, h.next] at hbounds
  omega

end Listed

/-! ## What a step does -/

section Moving

variable {l : CallLedger}

theorem moves_close (l : CallLedger) (st : CallStep) :
    Moves l { l with connection := l.connection.close } st := by
  cases hclosed : l.connection.closed with
  | true =>
      rw [Connection.close_of_closed hclosed]
      exact .rests rfl rfl rfl rfl
  | false =>
      rw [Connection.close_of_open hclosed]
      exact .closes rfl rfl rfl rfl

theorem moves_write (l : CallLedger) (m : Message) (st : CallStep) :
    Moves l { l with connection := (l.connection.write m).2 } st := by
  rcases Connection.write_cases l.connection m with
    ⟨-, -, heq⟩ | ⟨-, -, heq⟩ | ⟨-, heq⟩
  · rw [heq]
    exact .rests rfl rfl rfl rfl
  · rw [heq]
    exact moves_close l st
  · rw [heq]
    exact .rests rfl rfl rfl rfl

theorem moves_dispatch (l : CallLedger) (frame : Json) :
    Moves l (l.step (.dispatch frame)) (.dispatch frame) := by
  show Moves l { l with connection := l.connection.dispatch frame } _
  unfold Connection.dispatch
  split
  · next id outcome hframe =>
      rcases Connection.complete_cases l.connection id outcome with
        ⟨call, hslot, rfl, heq⟩ | ⟨-, heq⟩
      · rw [heq]
        exact .answers call frame outcome rfl hframe hslot rfl rfl rfl rfl
      · rw [heq]
        exact .rests rfl rfl rfl rfl
  · exact .rests rfl rfl rfl rfl
  · exact moves_write l _ _
  · exact .rests rfl rfl rfl rfl

theorem WellKept.entered_fields (h : l.WellKept)
    (hfew : l.calls.length + 1 ≤ Numeral.max64) :
    l.connection.entered.pending =
      l.connection.nextCall :: l.connection.pending ∧
      l.connection.entered.replies = l.connection.replies := by
  have hunused : ∀ other ∈ l.connection.pending, number other ≠
      number l.connection.nextCall := by
    intro other hother heq
    have hbounds := h.slot_bounds hother
    rw [h.next, Connection.number_of_le (Nat.le_trans hbounds.2 h.few),
      Connection.number_of_le hfew] at heq
    omega
  have hentered : l.connection.entered = _ := Connection.enter_of_unused hunused
  rw [hentered]
  exact ⟨rfl, rfl⟩

theorem WellKept.moves_start (h : l.WellKept) {method : String} {params : Json}
    (hfew : (l.step (.start method params)).calls.length ≤ Numeral.max64) :
    Moves l (l.step (.start method params)) (.start method params) := by
  change (l.start method params).calls.length ≤ Numeral.max64 at hfew
  show Moves l (l.start method params) _
  unfold start at hfew ⊢
  rcases Connection.startCall_cases l.connection method params with
    ⟨-, -, heq⟩ | ⟨hopen, -, heq⟩ | ⟨-, heq⟩
  · rw [heq] at hfew ⊢
    -- there are fewer calls than numbers, so that nobody loses a slot to the
    -- new one
    obtain ⟨hpending, hreplies⟩ := h.entered_fields (by simpa using hfew)
    exact .starts rfl (Connection.entered_nextCall _) hpending hreplies
  · have hrelease := Connection.close_release_eq (c := l.connection.entered)
      (by simpa using hopen) l.connection.nextCall
    rw [hrelease] at heq
    have hne : l.connection.entered.nextCall ≠ l.connection.nextCall := by
      simp
    rw [heq] at hfew ⊢
    simp only [if_neg hne] at hfew ⊢
    obtain ⟨hpending, hreplies⟩ := h.entered_fields (by simpa using hfew)
    refine .fails rfl (Connection.entered_nextCall _) rfl ?_
    have hself :
        (failure l.connection.nextCall).1 = l.connection.nextCall := rfl
    show List.filter _ (l.connection.entered.replies ++
      l.connection.entered.pending.map failure) = _
    rw [hpending, hreplies, List.map_cons, List.filter_append,
      List.filter_cons_of_neg (by simp [hself])]
    congr 1
    · rw [List.filter_eq_self]
      intro e he
      simpa using h.next_no_reply e he
    · rw [List.filter_eq_self]
      intro e he
      obtain ⟨call, hcall, rfl⟩ := List.mem_map.mp he
      have hbounds := h.slot_bounds hcall
      have hnext := h.next
      have hne : call ≠ l.connection.nextCall := by
        omega
      exact decide_eq_true hne
  · rw [heq]
    simp only [if_true]
    exact .rests rfl rfl rfl rfl

theorem WellKept.moves_leave (h : l.WellKept) {call : Nat} {state : CallState}
    {st : CallStep} (hcall : (call, .underway) ∈ l.calls)
    (hended : state ≠ .underway)
    (hstate : ∀ reply, state = .finished reply →
      l.connection.reply? call = some reply) :
    Moves l (l.leave call state) st := by
  have hown : ∀ other ∈ l.connection.pending, number other = number call →
      other = call :=
    fun other hother => h.number_inj (h.bounds hcall).2 (h.slot_bounds hother).2
  have hrelease := Connection.release_of_own hown
  refine .leaves call state hcall hended hstate rfl ?_ ?_ ?_
  · exact Connection.release_nextCall _ _
  · show (l.connection.release call).pending = _
    rw [hrelease]
  · show (l.connection.release call).replies = _
    rw [hrelease]

theorem WellKept.moves_resume (h : l.WellKept) (call : Nat) (st : CallStep) :
    Moves l (l.resume call) st := by
  unfold resume
  split
  · next reply hunderway hreply =>
      rw [isUnderway_iff] at hunderway
      refine h.moves_leave hunderway (by simp) ?_
      rintro _ ⟨⟩
      exact hreply
  · exact .rests rfl rfl rfl rfl

theorem WellKept.moves_timeOut (h : l.WellKept) (call : Nat) (st : CallStep) :
    Moves l (l.timeOut call) st := by
  unfold timeOut
  split
  · next hunderway _ =>
      rw [isUnderway_iff] at hunderway
      exact h.moves_leave hunderway (by simp) (by simp)
  · exact .rests rfl rfl rfl rfl

theorem WellKept.moves_drop (h : l.WellKept) (call : Nat) (st : CallStep) :
    Moves l (l.drop call) st := by
  unfold drop
  split
  · next hunderway =>
      rw [isUnderway_iff] at hunderway
      exact h.moves_leave hunderway (by simp) (by simp)
  · exact .rests rfl rfl rfl rfl

theorem WellKept.moves_step (h : l.WellKept) {st : CallStep}
    (hfew : (l.step st).calls.length ≤ Numeral.max64) :
    Moves l (l.step st) st := by
  cases st with
  | start method params =>
      exact h.moves_start hfew
  | dispatch frame =>
      exact moves_dispatch l frame
  | resume call =>
      exact h.moves_resume call _
  | timeOut call =>
      exact h.moves_timeOut call _
  | drop call =>
      exact h.moves_drop call _
  | notify method params =>
      exact moves_write l _ _
  | breakPipe =>
      exact .rests rfl rfl rfl rfl
  | close =>
      exact moves_close l _

end Moving

/-! ## What a step preserves -/

section Preserved

variable {l l' : CallLedger} {st : CallStep}

theorem reply?_of_same (h : l'.connection.replies = l.connection.replies)
    (call : Nat) :
    l'.connection.reply? call = l.connection.reply? call := by
  rw [Connection.reply?_eq_find?, Connection.reply?_eq_find?, h]

theorem reply?_of_filter {call other : Nat}
    (h : l'.connection.replies = l.connection.replies.filter fun e =>
      e.1 ≠ call) :
    l'.connection.reply? other = if other =
      call then none else l.connection.reply? other := by
  rw [Connection.reply?_eq_find?, Connection.reply?_eq_find?, h]
  by_cases heq : other = call
  · rw [if_pos heq, Option.map_eq_none_iff, List.find?_eq_none]
    intro e he
    simpa [heq] using (List.mem_filter.mp he).2
  · rw [if_neg heq, Connection.find?_filter_ne heq]

theorem mem_calls_of_map {call other : Nat} {state state' : CallState}
    (h : l'.calls = l.calls.map fun e =>
      if e.1 = call then (call, state) else e) :
    (other, state') ∈ l'.calls ↔
      (other ≠ call ∧ (other, state') ∈ l.calls) ∨
        (other = call ∧ state' = state ∧
          ∃ before, (call, before) ∈ l.calls) := by
  rw [h, List.mem_map]
  constructor
  · rintro ⟨⟨p, before⟩, hmem, heq⟩
    by_cases hp : p = call
    · rw [if_pos hp] at heq
      obtain ⟨rfl, rfl⟩ := Prod.mk.inj heq
      exact Or.inr ⟨rfl, rfl, before, hp ▸ hmem⟩
    · rw [if_neg hp] at heq
      obtain ⟨rfl, rfl⟩ := Prod.mk.inj heq
      exact Or.inl ⟨hp, hmem⟩
  · rintro (⟨hne, hmem⟩ | ⟨rfl, rfl, before, hmem⟩)
    · exact ⟨_, hmem, if_neg hne⟩
    · exact ⟨_, hmem, if_pos rfl⟩

theorem replyOrFailure_eq_none {c : Connection} {lost : List Nat} {call : Nat} :
    c.replyOrFailure lost call = none ↔ c.reply? call = none ∧ call ∉ lost := by
  rw [Connection.replyOrFailure, Option.or_eq_none_iff]
  simp

theorem listed_snoc {calls : List (Nat × CallState)}
    (h : calls.map Prod.fst = List.range' 1 calls.length) (state : CallState) :
    (calls ++ [(calls.length + 1, state)]).map Prod.fst =
      List.range' 1 (calls ++ [(calls.length + 1, state)]).length := by
  rw [List.map_append, h, List.length_append, List.length_singleton,
    List.range'_concat]
  simp [Nat.add_comm]

theorem replyOrFailure_eq_some {c : Connection} {lost : List Nat} {call : Nat}
    {reply : Reply} (h : c.replyOrFailure lost call = some reply) :
    c.reply? call = some reply ∨
    (call ∈ lost ∧ reply = .error .connectionClosed) := by
  rw [Connection.replyOrFailure, Option.or_eq_some_iff] at h
  rcases h with h | ⟨-, h⟩
  · exact Or.inl h
  · by_cases hlost : call ∈ lost
    · rw [if_pos hlost] at h
      exact Or.inr ⟨hlost, (Option.some.inj h).symm⟩
    · simp [hlost] at h

theorem WellKept.listed_of_moves (h : l.WellKept) (hmoves : Moves l l' st) :
    l'.calls.map Prod.fst = List.range' 1 l'.calls.length ∧
      l'.connection.nextCall = l'.calls.length + 1 := by
  have hkept (hcalls : l'.calls = l.calls)
      (hnext : l'.connection.nextCall = l.connection.nextCall) :
      l'.calls.map Prod.fst = List.range' 1 l'.calls.length ∧
        l'.connection.nextCall = l'.calls.length + 1 := by
    rw [hcalls, hnext]
    exact ⟨h.listed, h.next⟩
  have hadded {state : CallState}
      (hcalls : l'.calls = l.calls ++ [(l.connection.nextCall, state)])
      (hnext : l'.connection.nextCall = l.connection.nextCall + 1) :
      l'.calls.map Prod.fst = List.range' 1 l'.calls.length ∧
        l'.connection.nextCall = l'.calls.length + 1 := by
    rw [h.next] at hcalls hnext
    rw [hcalls, hnext]
    exact ⟨listed_snoc h.listed state, by simp⟩
  cases hmoves with
  | rests hcalls hnext hpending hreplies =>
      exact hkept hcalls hnext
  | closes hcalls hnext hpending hreplies =>
      exact hkept hcalls hnext
  | starts hcalls hnext hpending hreplies =>
      exact hadded hcalls hnext
  | fails hcalls hnext hpending hreplies =>
      exact hadded hcalls hnext
  | answers call frame outcome hst hframe hslot hcalls hnext hpending
        hreplies =>
      exact hkept hcalls hnext
  | leaves call state hcall hended hstate hcalls hnext hpending hreplies =>
      have hfst : l'.calls.map Prod.fst = l.calls.map Prod.fst := by
        rw [hcalls, List.map_map]
        refine List.map_congr_left fun e _ => ?_
        by_cases he : e.1 = call
        · simp [he]
        · simp [he]
      have hlength : l'.calls.length = l.calls.length := by
        rw [hcalls, List.length_map]
      rw [hfst, hlength, hnext]
      exact ⟨h.listed, h.next⟩

theorem WellKept.nodup_of_moves (h : l.WellKept) (hmoves : Moves l l' st) :
    l'.connection.pending.Nodup := by
  cases hmoves with
  | rests hcalls hnext hpending hreplies =>
      rw [hpending]
      exact h.nodup
  | closes hcalls hnext hpending hreplies =>
      rw [hpending]
      exact List.nodup_nil
  | starts hcalls hnext hpending hreplies =>
      rw [hpending, List.nodup_cons]
      exact ⟨fun hmem => h.waits_not_next ((h.slot _).mp hmem), h.nodup⟩
  | fails hcalls hnext hpending hreplies =>
      rw [hpending]
      exact List.nodup_nil
  | answers call frame outcome hst hframe hslot hcalls hnext hpending
        hreplies =>
      rw [hpending]
      exact h.nodup.filter _
  | leaves call state hcall hended hstate hcalls hnext hpending hreplies =>
      rw [hpending]
      exact h.nodup.filter _

theorem mem_calls_of_snoc {call : Nat} {state : CallState}
    (hcalls : l'.calls = l.calls ++ [(l.connection.nextCall, state)])
    (hended : state ≠ .underway) :
    (call, .underway) ∈ l'.calls ↔ (call, .underway) ∈ l.calls := by
  rw [hcalls, List.mem_append, List.mem_singleton]
  constructor
  · rintro (hmem | heq)
    · exact hmem
    · exact absurd (Prod.mk.inj heq).2.symm hended
  · exact Or.inl

/-- Once all slots are gone, no call waits. -/
theorem WellKept.slot_of_lost (h : l.WellKept)
    (hcalls : ∀ call, (call, .underway) ∈ l'.calls ↔
      (call, .underway) ∈ l.calls)
    (hpending : l'.connection.pending = [])
    (hreplies : l'.connection.replies =
      l.connection.replies ++ l.connection.pending.map failure) (call : Nat) :
    call ∈ l'.connection.pending ↔ l'.Waits call := by
  rw [hpending]
  constructor
  · exact fun hmem => nomatch hmem
  · rintro ⟨hmem, hnone⟩
    rw [Connection.reply?_of_failures hreplies, replyOrFailure_eq_none] at hnone
    exact absurd ((h.slot call).mpr ⟨(hcalls call).mp hmem, hnone.1⟩) hnone.2

theorem WellKept.slot_of_moves (h : l.WellKept) (hmoves : Moves l l' st)
    (call : Nat) :
    call ∈ l'.connection.pending ↔ l'.Waits call := by
  cases hmoves with
  | rests hcalls hnext hpending hreplies =>
      rw [hpending, h.slot, Waits, Waits, hcalls, reply?_of_same hreplies]
  | closes hcalls hnext hpending hreplies =>
      exact h.slot_of_lost (fun _ => by rw [hcalls]) hpending hreplies call
  | starts hcalls hnext hpending hreplies =>
      have hnone : l.connection.reply? l.connection.nextCall = none := by
        rw [Connection.reply?_eq_find?, Option.map_eq_none_iff,
          List.find?_eq_none]
        intro e he
        simpa using h.next_no_reply e he
      rw [hpending, List.mem_cons, h.slot, Waits, Waits, hcalls,
        reply?_of_same hreplies, List.mem_append, List.mem_singleton]
      constructor
      · rintro (rfl | ⟨hmem, hreply⟩)
        · exact ⟨Or.inr rfl, hnone⟩
        · exact ⟨Or.inl hmem, hreply⟩
      · rintro ⟨hmem | heq, hreply⟩
        · exact Or.inr ⟨hmem, hreply⟩
        · exact Or.inl (Prod.mk.inj heq).1
  | fails hcalls hnext hpending hreplies =>
      exact h.slot_of_lost (fun _ => mem_calls_of_snoc hcalls (by simp))
        hpending hreplies call
  | answers taken frame outcome hst hframe hslot hcalls hnext hpending
        hreplies =>
      have hreply := Connection.reply?_of_append hreplies call
      rw [hpending, List.mem_filter, h.slot, Waits, Waits, hcalls, hreply,
        Option.or_eq_none_iff]
      by_cases htaken : call = taken
      · simp [htaken]
      · have hne : taken ≠ call := Ne.symm htaken
        simp [htaken, hne]
  | leaves gone state hcall hended hstate hcalls hnext hpending hreplies =>
      rw [hpending, List.mem_filter, h.slot, Waits, Waits,
        mem_calls_of_map hcalls, reply?_of_filter hreplies]
      by_cases hgone : call = gone
      · have hne : CallState.underway ≠ state := Ne.symm hended
        simp [hgone, hne]
      · simp [hgone]

theorem WellKept.owned_of_moves (h : l.WellKept) (hmoves : Moves l l' st)
    {call : Nat} {reply : Reply}
    (hsome : l'.connection.reply? call = some reply) :
    (call, .underway) ∈ l'.calls := by
  cases hmoves with
  | rests hcalls hnext hpending hreplies =>
      rw [hcalls]
      rw [reply?_of_same hreplies] at hsome
      exact h.owned call reply hsome
  | closes hcalls hnext hpending hreplies =>
      rw [hcalls]
      rw [Connection.reply?_of_failures hreplies] at hsome
      rcases replyOrFailure_eq_some hsome with hsome | ⟨hslot, -⟩
      · exact h.owned call reply hsome
      · exact ((h.slot call).mp hslot).1
  | starts hcalls hnext hpending hreplies =>
      rw [hcalls]
      rw [reply?_of_same hreplies] at hsome
      exact List.mem_append_left _ (h.owned call reply hsome)
  | fails hcalls hnext hpending hreplies =>
      rw [mem_calls_of_snoc hcalls (by simp)]
      rw [Connection.reply?_of_failures hreplies] at hsome
      rcases replyOrFailure_eq_some hsome with hsome | ⟨hslot, -⟩
      · exact h.owned call reply hsome
      · exact ((h.slot call).mp hslot).1
  | answers taken frame outcome hst hframe hslot hcalls hnext hpending
        hreplies =>
      rw [hcalls]
      rw [Connection.reply?_of_append hreplies, Option.or_eq_some_iff] at hsome
      rcases hsome with hsome | ⟨-, hsome⟩
      · exact h.owned call reply hsome
      · by_cases htaken : taken = call
        · exact htaken ▸ ((h.slot taken).mp hslot).1
        · simp [htaken] at hsome
  | leaves gone state hcall hended hstate hcalls hnext hpending hreplies =>
      rw [mem_calls_of_map hcalls]
      rw [reply?_of_filter hreplies] at hsome
      by_cases hgone : call = gone
      · simp [hgone] at hsome
      · rw [if_neg hgone] at hsome
        exact Or.inl ⟨hgone, h.owned call reply hsome⟩

theorem WellKept.of_moves (h : l.WellKept) (hmoves : Moves l l' st)
    (hfew : l'.calls.length ≤ Numeral.max64) : l'.WellKept where
  listed := (h.listed_of_moves hmoves).1
  next := (h.listed_of_moves hmoves).2
  few := hfew
  nodup := h.nodup_of_moves hmoves
  slot := h.slot_of_moves hmoves
  owned _ _ := h.owned_of_moves hmoves

end Preserved

end CallLedger

end CodeIntel
