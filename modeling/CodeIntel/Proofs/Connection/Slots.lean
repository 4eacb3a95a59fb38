import CodeIntel.Connection.Basic

/-!
# The slots of a connection

What each operation of a connection does to the slots and to the replies that
wait. A slot is never just lost: whoever removes the slot of another call gives
that call a reply. No operation takes a reply from a call but the release of the
call itself.
-/

namespace CodeIntel
namespace Connection

/-! # Operations as updates -/

def failure (call : Nat) : Nat × Reply :=
  (call, .error .connectionClosed)

theorem foldl_fail (calls : List Nat) (c : Connection) :
    calls.foldl fail c =
      { c with replies := c.replies ++ calls.map failure } := by
  induction calls generalizing c with
  | nil =>
      simp
  | cons call rest ih =>
      rw [List.foldl_cons, ih]
      simp [fail, failure]

theorem discard_eq (c : Connection) (which : Nat → Bool) :
    c.discard which =
      { c with
        pending := c.pending.filter fun call => !which call
        replies := c.replies ++ (c.pending.filter which).map failure } := by
  simp only [discard, removeSlots, foldl_fail]

theorem enter_eq (c : Connection) (call : Nat) :
    c.enter call =
      { c with
        pending :=
  call :: c.pending.filter fun other => !decide (number other = number call)
        replies := c.replies ++
          (c.pending.filter fun other => number other = number call).map
            failure } := by
  rw [enter, discard_eq]

theorem release_eq (c : Connection) (call : Nat) :
    c.release call =
      { c with
        pending :=
  c.pending.filter fun other => !decide (number other = number call)
        replies := (c.replies ++
          (c.pending.filter fun other => number other = number call).map
            failure).filter fun e => e.1 ≠ call } := by
  rw [release, discard_eq]

theorem close_of_closed {c : Connection} (h : c.closed = true) :
    c.close = c := by
  rw [close, if_pos h]

theorem close_of_open {c : Connection} (h : c.closed = false) :
    c.close =
      { c with
        closed :=
  true, pending := [], replies := c.replies ++ c.pending.map failure } := by
  have hall : c.pending.filter (fun _ => true) = c.pending :=
    List.filter_eq_self.mpr fun _ _ => rfl
  simp [close, h, shut, drain, removeSlots, foldl_fail, hall]

theorem close_release_eq {c : Connection} (h : c.closed = false) (call : Nat) :
    c.close.release call =
      { c with
        closed := true
        pending := []
        replies :=
  (c.replies ++ c.pending.map failure).filter fun e => e.1 ≠ call } := by
  rw [close_of_open h, release_eq]
  simp only [List.filter_nil, List.map_nil, List.append_nil]

/-- Completing a call either finds its slot or changes nothing. -/
theorem complete_cases (c : Connection) (id : Nat) (outcome : Outcome) :
    (∃ call ∈ c.pending, number call = id ∧
      c.complete id outcome =
        { c with
          pending := c.pending.filter (· ≠ call)
          replies := c.replies ++ [(call, outcome.mapError .server)] }) ∨
    ((∀ call ∈ c.pending, number call ≠ id) ∧ c.complete id outcome = c) := by
  unfold complete
  split
  · next call hfind =>
      refine Or.inl ⟨call, List.mem_of_find?_eq_some hfind, ?_, rfl⟩
      simpa using List.find?_some hfind
  · next hfind =>
      refine Or.inr ⟨?_, rfl⟩
      simpa using hfind

theorem dispatch_response {frame : Json} {id : Nat} {outcome : Outcome}
    (h : Incoming.classify frame = .response id outcome) (c : Connection) :
    c.dispatch frame = c.complete id outcome := by
  rw [dispatch, h]

/-! # Numbers -/

theorem number_of_le {call : Nat} (h : call ≤ Numeral.max64) :
    number call = call :=
  Nat.mod_eq_of_lt (Nat.lt_succ_of_le h)

theorem enter_of_unused {c : Connection} {call : Nat}
    (h : ∀ other ∈ c.pending, number other ≠ number call) :
    c.enter call = { c with pending := call :: c.pending } := by
  have hkept :
      (c.pending.filter fun other => !decide (number other = number call)) =
        c.pending := by
    rw [List.filter_eq_self]
    intro other hother
    simpa using h other hother
  have hlost :
      (c.pending.filter fun other => number other = number call) = [] := by
    rw [List.filter_eq_nil_iff]
    intro other hother
    simpa using h other hother
  rw [enter_eq, hkept, hlost, List.map_nil, List.append_nil]

theorem release_of_own {c : Connection} {call : Nat}
    (h : ∀ other ∈ c.pending, number other = number call → other = call) :
    c.release call =
      { c with
        pending := c.pending.filter (· ≠ call)
        replies := c.replies.filter fun e => e.1 ≠ call } := by
  have hkept :
      (c.pending.filter fun other => !decide (number other = number call)) =
      c.pending.filter (· ≠ call) := by
    refine List.filter_congr fun other hother => ?_
    by_cases heq : other = call
    · simp [heq]
    · have hne : number other ≠ number call := fun e => heq (h other hother e)
      simp [heq, hne]
  have hlost :
      ((c.pending.filter fun other =>
        number other = number call).map failure).filter
        (fun e => e.1 ≠ call) = [] := by
    rw [List.filter_eq_nil_iff]
    intro e he
    obtain ⟨other, hother, rfl⟩ := List.mem_map.mp he
    rw [List.mem_filter] at hother
    have heq : other = call := h other hother.1 (by simpa using hother.2)
    simp [failure, heq]
  rw [release_eq, hkept, List.filter_append, hlost, List.append_nil]

/-! # What stays the same -/

section Frame

variable (c : Connection) (call : Nat)

@[simp] theorem enter_closed : (c.enter call).closed = c.closed := by
  rw [enter_eq]

@[simp] theorem enter_wire : (c.enter call).wire = c.wire := by
  rw [enter_eq]

@[simp] theorem enter_broken : (c.enter call).broken = c.broken := by
  rw [enter_eq]

@[simp] theorem enter_nextCall : (c.enter call).nextCall = c.nextCall := by
  rw [enter_eq]

@[simp] theorem release_closed : (c.release call).closed = c.closed := by
  rw [release_eq]

@[simp] theorem release_wire : (c.release call).wire = c.wire := by
  rw [release_eq]

@[simp] theorem release_broken : (c.release call).broken = c.broken := by
  rw [release_eq]

@[simp] theorem release_nextCall : (c.release call).nextCall = c.nextCall := by
  rw [release_eq]

@[simp] theorem complete_closed (outcome : Outcome) :
    (c.complete call outcome).closed = c.closed := by
  unfold complete
  split <;> rfl

@[simp] theorem complete_wire (outcome : Outcome) :
    (c.complete call outcome).wire = c.wire := by
  unfold complete
  split <;> rfl

@[simp] theorem complete_broken (outcome : Outcome) :
    (c.complete call outcome).broken = c.broken := by
  unfold complete
  split <;> rfl

@[simp] theorem complete_nextCall (outcome : Outcome) :
    (c.complete call outcome).nextCall = c.nextCall := by
  unfold complete
  split <;> rfl

end Frame

@[simp] theorem close_closed (c : Connection) : c.close.closed = true := by
  cases h : c.closed with
  | true =>
      rw [close_of_closed h, h]
  | false =>
      rw [close_of_open h]

@[simp] theorem close_wire (c : Connection) : c.close.wire = c.wire := by
  cases h : c.closed with
  | true =>
      rw [close_of_closed h]
  | false =>
      rw [close_of_open h]

@[simp] theorem close_broken (c : Connection) : c.close.broken = c.broken := by
  cases h : c.closed with
  | true =>
      rw [close_of_closed h]
  | false =>
      rw [close_of_open h]

@[simp] theorem close_nextCall (c : Connection) :
    c.close.nextCall = c.nextCall := by
  cases h : c.closed with
  | true =>
      rw [close_of_closed h]
  | false =>
      rw [close_of_open h]

/-! # Writing -/

theorem put?_eq_some {c c' : Connection} {m : Message}
    (h : c.put? m = some c') :
    c' = { c with wire := c.wire ++ [m] } := by
  rw [put?] at h
  split at h
  · exact nomatch h
  · exact (Option.some.inj h).symm

/-- A message is written, or the connection is closed and nothing is written. -/
theorem write_cases (c : Connection) (m : Message) :
    (c.closed = false ∧ c.broken = false ∧
      c.write m = (.ok (), { c with wire := c.wire ++ [m] })) ∨
    (c.closed = false ∧ c.broken = true ∧
      c.write m = (.error .disconnected, c.close)) ∨
    (c.closed = true ∧ c.write m = (.error .disconnected, c)) := by
  cases hclosed : c.closed with
  | true =>
      exact Or.inr (Or.inr ⟨rfl, by simp [write, checkOpen, hclosed]⟩)
  | false =>
      cases hbroken : c.broken with
      | true =>
          exact Or.inr (Or.inl ⟨rfl, rfl,
            by simp [write, checkOpen, put?, hclosed, hbroken]⟩)
      | false =>
          exact Or.inl ⟨rfl, rfl,
            by simp [write, checkOpen, put?, hclosed, hbroken]⟩

@[simp] theorem write_broken (c : Connection) (m : Message) :
    (c.write m).2.broken = c.broken := by
  rcases write_cases c m with ⟨-, -, heq⟩ | ⟨-, -, heq⟩ | ⟨-, heq⟩
  · rw [heq]
  · rw [heq, close_broken]
  · rw [heq]

def entered (c : Connection) : Connection :=
  (c.allot.2).enter c.nextCall

@[simp] theorem entered_closed (c : Connection) : c.entered.closed = c.closed :=
  enter_closed _ _

@[simp] theorem entered_broken (c : Connection) : c.entered.broken = c.broken :=
  enter_broken _ _

@[simp] theorem entered_wire (c : Connection) : c.entered.wire = c.wire :=
  enter_wire _ _

@[simp] theorem entered_nextCall (c : Connection) :
    c.entered.nextCall = c.nextCall + 1 :=
  enter_nextCall _ _

def nextRequest (c : Connection) (method : String) (params : Json) : Message :=
  .request (number c.nextCall) method params

theorem allot_fst (c : Connection) : c.allot.1 = c.nextCall := rfl

/-- A call waits, or its write has failed and it has cleared its slot, or it did
not begin. -/
theorem startCall_cases (c : Connection) (method : String) (params : Json) :
    (c.closed = false ∧ c.broken = false ∧
      c.startCall method params =
        (.ok c.nextCall,
          { c.entered with wire := c.wire ++ [c.nextRequest method params] })) ∨
    (c.closed = false ∧ c.broken = true ∧
      c.startCall method params =
        (.error .disconnected, c.entered.close.release c.nextCall)) ∨
    (c.closed = true ∧
      c.startCall method params = (.error .disconnected, c)) := by
  have hfirst (hopen : c.closed = false) : c.checkOpen = .ok () := by
    simp [checkOpen, hopen]
  have hsecond (hopen : c.closed = false) :
      ((c.allot.2).enter c.nextCall).checkOpen = .ok () := by
    simp [checkOpen, allot, hopen]
  have hsent {c' : Connection} (hopen : c.closed = false)
      (hwrite : c.entered.write (c.nextRequest method params) = (.ok (), c')) :
      c.startCall method params = (.ok c.nextCall, c') := by
    rw [entered, nextRequest] at hwrite
    simp only [startCall, hfirst hopen, allot_fst, hsecond hopen, hwrite]
  have hfailed {f : ClientFault} {c' : Connection} (hopen : c.closed = false)
      (hwrite : c.entered.write (c.nextRequest method params) =
        (.error f, c')) :
      c.startCall method params = (.error f, c'.release c.nextCall) := by
    rw [entered, nextRequest] at hwrite
    simp only [startCall, hfirst hopen, allot_fst, hsecond hopen, hwrite]
  rcases write_cases c.entered (c.nextRequest method params) with
    ⟨hopen, hbroken, heq⟩ | ⟨hopen, hbroken, heq⟩ | ⟨hclosed, -⟩
  · rw [entered_closed] at hopen
    rw [entered_broken] at hbroken
    rw [entered_wire] at heq
    exact Or.inl ⟨hopen, hbroken, hsent hopen heq⟩
  · rw [entered_closed] at hopen
    rw [entered_broken] at hbroken
    exact Or.inr (Or.inl ⟨hopen, hbroken, hfailed hopen heq⟩)
  · rw [entered_closed] at hclosed
    exact Or.inr (Or.inr ⟨hclosed, by simp [startCall, checkOpen, hclosed]⟩)

@[simp]
theorem startCall_broken (c : Connection) (method : String) (params : Json) :
    (c.startCall method params).2.broken = c.broken := by
  rcases startCall_cases c method params with
    ⟨-, -, heq⟩ | ⟨-, -, heq⟩ | ⟨-, heq⟩
  · rw [heq, entered_broken]
  · rw [heq, release_broken, close_broken, entered_broken]
  · rw [heq]

@[simp] theorem dispatch_broken (c : Connection) (frame : Json) :
    (c.dispatch frame).broken = c.broken := by
  unfold dispatch
  split
  · exact complete_broken c _ _
  · rfl
  · exact write_broken c _
  · rfl

/-! # Replies -/

theorem reply?_eq_find? (c : Connection) (call : Nat) :
    c.reply? call = (c.replies.find? fun e => e.1 = call).map Prod.snd := rfl

theorem reply?_of_append {c c' : Connection} {entries : List (Nat × Reply)}
    (h : c'.replies = c.replies ++ entries) (call : Nat) :
    c'.reply? call =
      (c.reply? call).or
        ((entries.find? fun e => e.1 = call).map Prod.snd) := by
  rw [reply?_eq_find?, reply?_eq_find?, h, List.find?_append]
  cases c.replies.find? fun e => e.1 = call <;> rfl

theorem find?_map_failure (calls : List Nat) (call : Nat) :
    ((calls.map failure).find? fun e => e.1 = call).map Prod.snd =
      if call ∈ calls then some (.error .connectionClosed) else none := by
  induction calls with
  | nil =>
      rfl
  | cons other rest ih =>
      by_cases h : other = call
      · simp [failure, h]
      · have hne : call ≠ other := fun e => h e.symm
        simpa [failure, h, hne] using ih

/-- The reply of a call after others were failed: its own one if it has one. -/
def replyOrFailure (c : Connection) (lost : List Nat) (call : Nat) :
    Option Reply :=
  (c.reply? call).or
    (if call ∈ lost then some (.error .connectionClosed) else none)

theorem reply?_of_failures {c c' : Connection} {lost : List Nat}
    (h : c'.replies = c.replies ++ lost.map failure) (call : Nat) :
    c'.reply? call = c.replyOrFailure lost call := by
  rw [reply?_of_append h, find?_map_failure, replyOrFailure]

theorem reply?_fail (c : Connection) (other call : Nat) :
    (c.fail other).reply? call = c.replyOrFailure [other] call :=
  reply?_of_failures rfl call

theorem reply?_enter (c : Connection) (call other : Nat) :
    (c.enter call).reply? other =
      c.replyOrFailure (c.pending.filter fun p =>
        number p = number call) other :=
  reply?_of_failures (by rw [enter_eq]) other

theorem find?_filter_ne {call other : Nat} (h : other ≠ call)
    (replies : List (Nat × Reply)) :
    (replies.filter fun e => e.1 ≠ call).find? (fun e => e.1 = other) =
      replies.find? fun e => e.1 = other := by
  rw [List.find?_filter]
  refine congrArg (fun p => List.find? p replies) (funext fun e => ?_)
  by_cases he : e.1 = other
  · simp [he, h]
  · simp [he]

theorem reply?_release_of_ne {call other : Nat} (h : other ≠ call)
    (c : Connection) :
    (c.release call).reply? other =
      c.replyOrFailure (c.pending.filter fun p => number p = number call)
        other := by
  have hlost : (c.discard fun p => number p = number call).replies =
      c.replies ++ (c.pending.filter fun p => number p = number call).map
        failure := by
    rw [discard_eq]
  rw [← reply?_of_failures hlost, reply?_eq_find?, reply?_eq_find?, release,
    find?_filter_ne h]

/-! # Slots -/

theorem mem_pending_enter {c : Connection} {call other : Nat} :
    other ∈ (c.enter call).pending ↔
      other = call ∨ (other ∈ c.pending ∧ number other ≠ number call) := by
  rw [enter_eq]
  simp

theorem mem_pending_release {c : Connection} {call other : Nat} :
    other ∈ (c.release call).pending ↔ other ∈ c.pending ∧
    number other ≠ number call := by
  rw [release_eq]
  simp

/-- Whether the slot of a call is there or has been completed. -/
def Serves (c : Connection) (call : Nat) : Prop :=
  call ∈ c.pending ∨ (c.reply? call).isSome = true

theorem Serves.of_lost {c : Connection} {lost : List Nat} {call : Nat}
    (h : (c.reply? call).isSome = true ∨ call ∈ lost) :
    (c.replyOrFailure lost call).isSome = true := by
  rw [replyOrFailure, Option.isSome_or, Bool.or_eq_true]
  rcases h with h | h
  · exact Or.inl h
  · exact Or.inr (by simp [h])

theorem serves_enter_self (c : Connection) (call : Nat) :
    (c.enter call).Serves call :=
  Or.inl (mem_pending_enter.mpr (Or.inl rfl))

/-- A call keeps its slot or is given a reply when another call clears the slot
under its own number. -/
theorem Serves.cases_number {c : Connection} {other : Nat} (h : c.Serves other)
    (call : Nat) :
    (other ∈ c.pending ∧ number other ≠ number call) ∨
      (c.replyOrFailure (c.pending.filter fun p => number p = number call)
        other).isSome = true := by
  rcases h with hslot | hreply
  · by_cases hn : number other = number call
    · refine Or.inr (Serves.of_lost (Or.inr ?_))
      simpa using ⟨hslot, hn⟩
    · exact Or.inl ⟨hslot, hn⟩
  · exact Or.inr (Serves.of_lost (Or.inl hreply))

theorem Serves.enter {c : Connection} {other : Nat} (h : c.Serves other)
    (call : Nat) :
    (c.enter call).Serves other := by
  rcases h.cases_number call with hslot | hreply
  · exact Or.inl (mem_pending_enter.mpr (Or.inr hslot))
  · exact Or.inr (by rw [reply?_enter]; exact hreply)

theorem Serves.release {c : Connection} {call other : Nat} (h : c.Serves other)
    (hne : other ≠ call) : (c.release call).Serves other := by
  rcases h.cases_number call with hslot | hreply
  · exact Or.inl (mem_pending_release.mpr hslot)
  · exact Or.inr (by rw [reply?_release_of_ne hne]; exact hreply)

theorem Serves.complete {c : Connection} {call : Nat} (h : c.Serves call)
    (id : Nat) (outcome : Outcome) : (c.complete id outcome).Serves call := by
  rcases complete_cases c id outcome with ⟨taken, -, -, heq⟩ | ⟨-, heq⟩
  · have hreplies : (c.complete id outcome).replies =
        c.replies ++ [(taken, outcome.mapError .server)] := by
      rw [heq]
    unfold Serves
    rw [reply?_of_append hreplies, Option.isSome_or, Bool.or_eq_true]
    by_cases htaken : call = taken
    · exact Or.inr (Or.inr (by simp [htaken]))
    · rcases h with hslot | hreply
      · exact Or.inl (by rw [heq]; simpa using ⟨hslot, htaken⟩)
      · exact Or.inr (Or.inl hreply)
  · rw [heq]
    exact h

theorem Serves.fail {c : Connection} {call : Nat} (h : c.Serves call)
    (other : Nat) :
    (c.fail other).Serves call := by
  rcases h with hslot | hreply
  · exact Or.inl hslot
  · exact Or.inr (by rw [reply?_fail]; exact Serves.of_lost (Or.inl hreply))

end Connection
end CodeIntel
