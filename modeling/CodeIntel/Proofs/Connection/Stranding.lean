import CodeIntel.Proofs.Connection.Steady

/-!
# No call is stranded

Whatever the order of steps, once the connection is closed for good each call
whose request was sent has its reply, and no other call will ever wait.
-/

namespace CodeIntel

open Connection (number)

/-! # Replies -/

def IsCompletion (reply : Reply) : Prop :=
  reply = .error .connectionClosed ∨
    ∃ outcome : Outcome, reply = outcome.mapError .server

namespace Connection

def Told (c : Connection) : Prop :=
  ∀ e ∈ c.replies, IsCompletion e.2

section Told

variable {c : Connection}

theorem Told.of_failures (h : c.Told) {c' : Connection} (lost : List Nat)
    (hreplies : ∀ e ∈ c'.replies, e ∈ c.replies ++ lost.map failure) :
    c'.Told := by
  intro e he
  rcases List.mem_append.mp (hreplies e he) with hbefore | hlost
  · exact h e hbefore
  · obtain ⟨call, -, rfl⟩ := List.mem_map.mp hlost
    exact Or.inl rfl

theorem Told.enter (h : c.Told) (call : Nat) : (c.enter call).Told := by
  refine h.of_failures (c.pending.filter fun other =>
    number other = number call) ?_
  intro e he
  rwa [enter_eq] at he

theorem Told.release (h : c.Told) (call : Nat) : (c.release call).Told := by
  refine h.of_failures (c.pending.filter fun other =>
    number other = number call) ?_
  intro e he
  rw [release_eq] at he
  exact (List.mem_filter.mp he).1

theorem Told.fail (h : c.Told) (call : Nat) : (c.fail call).Told :=
  h.of_failures [call] fun _ he => he

theorem Told.complete (h : c.Told) (id : Nat) (outcome : Outcome) :
    (c.complete id outcome).Told := by
  intro e he
  rcases complete_cases c id outcome with ⟨call, -, -, heq⟩ | ⟨-, heq⟩
  · rw [heq] at he
    rcases List.mem_append.mp he with hbefore | hnew
    · exact h e hbefore
    · rw [List.mem_singleton] at hnew
      exact Or.inr ⟨outcome, by rw [hnew]⟩
  · rw [heq] at he
    exact h e he

theorem Told.completion (h : c.Told) {call : Nat} {reply : Reply}
    (hreply : c.reply? call = some reply) : IsCompletion reply := by
  rw [reply?_eq_find?, Option.map_eq_some_iff] at hreply
  obtain ⟨e, he, rfl⟩ := hreply
  exact h e (List.mem_of_find?_eq_some he)

end Told

end Connection

namespace Traffic

/-! # Turns -/

/-- What a step of one call leaves alone: the other calls, whether the
connection is open, and the closers that there are. -/
structure Turn (s s' : Traffic) (i : Nat) : Prop where
  others : ∀ k, k ≠ i → s'.stage? k = s.stage? k
  closed : s'.connection.closed = s.connection.closed
  closers : s'.closers = s.closers ∨ s'.closers = s.closers ++ [.begun]
  told : s.connection.Told → s'.connection.Told

section Turn

variable {s s' : Traffic} {i : Nat}

theorem Turn.refl (s : Traffic) (i : Nat) : Turn s s i :=
  ⟨fun _ _ => rfl, rfl, Or.inl rfl, id⟩

theorem turn_move {c : Connection} (hclosed : c.closed = s.connection.closed)
    (htold : s.connection.Told → c.Told) (b : CallStage) :
    Turn s (s.move i c b) i := by
  refine ⟨fun k hk => ?_, hclosed, Or.inl rfl, htold⟩
  unfold stage? move
  rw [List.getElem?_modify]
  cases s.calls[k]? <;> simp [Ne.symm hk]

theorem turn_leave (call : Nat) (b : CallStage) : Turn s (s.leave i call b) i :=
  turn_move (Connection.release_closed _ _) (fun h => h.release call) b

theorem turn_advance (s : Traffic) (i : Nat) (task : CallTask) :
    Turn s (s.advance i task) i := by
  unfold advance
  split
  · split
    · exact turn_move rfl id _
    · exact turn_move rfl id _
  · exact turn_move (c := s.connection.allot.2) rfl id _
  · exact turn_move (Connection.enter_closed _ _) (fun h => h.enter _) _
  · split
    · exact turn_leave _ _
    · exact turn_move rfl id _
  · next call _ =>
      split
      · exact Turn.refl s i
      · exact turn_leave _ _
      · have hmove :=
          turn_move (s := s) (i := i) (c := s.connection) rfl id (.writing call)
        exact ⟨hmove.others, hmove.closed, hmove.closers, hmove.told⟩
  · next call _ =>
      split
      · next c hput =>
          have hc := Connection.put?_eq_some hput
          have hmove :=
            turn_move (s := s) (i := i) (c := c) (by rw [hc]) (fun h => hc ▸ h)
            (.waiting call)
          exact ⟨hmove.others, hmove.closed, hmove.closers, hmove.told⟩
      · have hmove := turn_move (s := s) (i := i) (c := s.connection) rfl id
          (.closing call s.closers.length)
        exact ⟨hmove.others, hmove.closed, Or.inr rfl, hmove.told⟩
  · split
    · exact turn_leave _ _
    · exact Turn.refl s i
  · split
    · exact turn_leave _ _
    · exact Turn.refl s i
  · exact Turn.refl s i
  · exact Turn.refl s i

theorem turn_drop (s : Traffic) (i : Nat) (task : CallTask) :
    Turn s (s.drop i task) i := by
  unfold drop
  split
  · exact turn_move rfl id _
  · exact turn_leave _ _
  · exact turn_leave _ _
  · next call _ =>
      have hleave := turn_leave (s := s) (i := i) call .dropped
      exact ⟨hleave.others, hleave.closed, hleave.closers, hleave.told⟩
  · exact Turn.refl s i

theorem turn_timeOut (s : Traffic) (i : Nat) (limit : Duration)
    (task : CallTask) :
    Turn s (s.timeOut i limit task) i := by
  unfold timeOut
  split
  · split
    · exact Turn.refl s i
    · exact turn_leave _ _
  · exact Turn.refl s i

end Turn

/-! # The first closer -/

section First

variable {closed : Bool} {closers : List CloseStage}

theorem OneFirst.append_begun (h : OneFirst closed closers) :
    OneFirst closed (closers ++ [.begun]) := by
  have hfound {j : Nat} {a : CloseStage}
      (hj : (closers ++ [.begun])[j]? = some a)
      (ha : a.isFirst = true) : closers[j]? = some a := by
    rw [List.getElem?_append] at hj
    split at hj
    · exact hj
    · rw [List.getElem?_singleton] at hj
      split at hj
      · obtain rfl : CloseStage.begun = a := Option.some.inj hj
        exact nomatch ha
      · exact nomatch hj
  constructor
  · intro j k a b hj hk ha hb
    exact h.unique j k a b (hfound hj ha) (hfound hk hb) ha hb
  · intro j a hj ha
    exact h.closed j a (hfound hj ha) ha

theorem OneFirst.set (h : OneFirst closed closers) {j : Nat}
    {old stage : CloseStage} (hj : closers[j]? = some old)
    (hstage : stage.isFirst = true → old.isFirst = true) :
    OneFirst closed (closers.set j stage) := by
  have hfound {k : Nat} {a : CloseStage}
      (hk : (closers.set j stage)[k]? = some a)
      (ha : a.isFirst = true) :
      ∃ b, closers[k]? = some b ∧ b.isFirst = true := by
    rw [List.getElem?_set] at hk
    split at hk
    · next hjk =>
        split at hk
        · obtain rfl : stage = a := Option.some.inj hk
          exact ⟨old, hjk ▸ hj, hstage ha⟩
        · exact nomatch hk
    · exact ⟨a, hk, ha⟩
  constructor
  · intro k l a b hk hl ha hb
    obtain ⟨a', hk', ha'⟩ := hfound hk ha
    obtain ⟨b', hl', hb'⟩ := hfound hl hb
    exact h.unique k l a' b' hk' hl' ha' hb'
  · intro k a hk ha
    obtain ⟨a', hk', ha'⟩ := hfound hk ha
    exact h.closed k a' hk' ha'

theorem OneFirst.shut (h : OneFirst false closers) (j : Nat) :
    OneFirst true (closers.set j .first) := by
  have hself {k : Nat} {a : CloseStage}
      (hk : (closers.set j .first)[k]? = some a)
      (ha : a.isFirst = true) : k = j := by
    by_cases hkj : k = j
    · exact hkj
    · rw [List.getElem?_set_ne (Ne.symm hkj)] at hk
      exact absurd (h.closed k a hk ha) (by simp)
  constructor
  · intro k l a b hk hl ha hb
    rw [hself hk ha, hself hl hb]
  · intro k a _ _
    rfl

end First

theorem oneFirst_of_turn {s s' : Traffic} {i : Nat} (hturn : Turn s s' i)
    (h : OneFirst s.connection.closed s.closers) :
    OneFirst s'.connection.closed s'.closers := by
  rw [hturn.closed]
  rcases hturn.closers with heq | heq
  · rwa [heq]
  · rw [heq]
    exact h.append_begun

theorem oneFirst_advanceCloser {s : Traffic} {j : Nat} {stage : CloseStage}
    (hj : s.closers[j]? = some stage)
    (h : OneFirst s.connection.closed s.closers) :
    OneFirst (s.advanceCloser j stage).connection.closed
      (s.advanceCloser j stage).closers := by
  cases stage with
  | begun =>
      cases hclosed : s.connection.closed with
      | true =>
          rw [hclosed] at h
          simp only [Traffic.advanceCloser, hclosed, if_true]
          exact h.set hj (by intro ha; cases ha)
      | false =>
          rw [hclosed] at h
          simp only [Traffic.advanceCloser, hclosed]
          exact h.shut j
  | first =>
      exact h.set hj fun _ => rfl
  | failing lost =>
      cases lost with
      | nil =>
          exact h.set hj fun _ => rfl
      | cons call rest =>
          exact h.set hj fun _ => rfl
  | finished first =>
      exact h

/-! # Every run -/

/-- What holds between two steps of calls and closers. -/
structure Settled (s : Traffic) : Prop where
  steady : s.Steady
  oneFirst : OneFirst s.connection.closed s.closers
  told : s.connection.Told

section Every

variable {s : Traffic}

theorem Settled.of_turn {s' : Traffic} {i : Nat} (h : s.Settled)
    (hturn : Turn s s' i) (hsteady : s'.Steady) : s'.Settled :=
  ⟨hsteady, oneFirst_of_turn hturn h.oneFirst, hturn.told h.told⟩

theorem Settled.onCall (h : s.Settled) {i : Nat} {f : CallTask → Traffic}
    (hturn : ∀ task, Turn s (f task) i)
    (hsteady : ∀ task, s.calls[i]? = some task → (f task).Steady) :
    (s.onCall i f).Settled := by
  unfold Traffic.onCall
  split
  · next task htask =>
      exact h.of_turn (hturn task) (hsteady task htask)
  · exact h

theorem told_advanceCloser (h : s.connection.Told) (j : Nat)
    (stage : CloseStage) :
    (s.advanceCloser j stage).connection.Told := by
  unfold Traffic.advanceCloser
  split
  · split
    · exact h
    · exact h
  · exact h
  · exact h.fail _
  · exact h
  · exact h

theorem Settled.step (h : s.Settled) (st : TrafficStep) :
    (s.step st).Settled := by
  cases st with
  | call method params =>
      exact ⟨h.steady.call method params, h.oneFirst, h.told⟩
  | close =>
      exact ⟨h.steady.close, h.oneFirst.append_begun, h.told⟩
  | advanceCall i =>
      exact h.onCall (turn_advance s i) fun task htask =>
        h.steady.advance h.oneFirst htask
  | advanceCloser j =>
      rcases step_advanceCloser_cases s j with ⟨stage, hj, heq⟩ | heq
      · rw [heq]
        exact ⟨h.steady.advanceCloser hj, oneFirst_advanceCloser hj h.oneFirst,
          told_advanceCloser h.told j stage⟩
      · rwa [heq]
  | respond id outcome =>
      refine ⟨h.steady.respond id outcome, ?_, h.told.complete id outcome⟩
      show OneFirst (s.connection.complete id outcome).closed s.closers
      rw [Connection.complete_closed]
      exact h.oneFirst
  | timeOut i limit =>
      exact h.onCall (turn_timeOut s i limit) fun task htask =>
        h.steady.timeOut limit htask
  | drop i =>
      exact h.onCall (turn_drop s i) fun task htask => h.steady.drop htask
  | breakPipe =>
      exact ⟨⟨h.steady.counted, h.steady.apart, h.steady.served,
        h.steady.drained, h.steady.owned⟩, h.oneFirst, h.told⟩

theorem Settled.run (h : s.Settled) (steps : List TrafficStep) :
    (s.run steps).Settled := by
  induction steps generalizing s with
  | nil =>
      exact h
  | cons st rest ih =>
      exact ih (h.step st)

theorem settled_empty : Settled {} := by
  refine ⟨⟨?_, ?_, ?_, ?_, ?_⟩, ⟨?_, ?_⟩, ?_⟩
  · exact fun i call h => nomatch h
  · exact fun i k call h => nomatch h
  · exact fun i call h => nomatch h
  · exact fun _ i call h => nomatch h
  · exact fun call h => nomatch h
  · exact fun j k a b h => nomatch h
  · exact fun j a h => nomatch h
  · exact fun e h => nomatch h

end Every

/-! # Once the connection is closed -/

section Closed

variable {s : Traffic}

/-- Where a call may be that will never wait. -/
def WontWait (stage : CallStage) : Prop :=
  stage.isUnsent = true ∨ stage = .ended (.error .disconnected) ∨
    stage = .dropped

theorem checkOpen_of_closed (hclosed : s.connection.closed = true) :
    s.connection.checkOpen = .error .disconnected := by
  rw [Connection.checkOpen, if_pos hclosed]

theorem stage?_move_self {i : Nat} {task : CallTask}
    (htask : s.calls[i]? = some task) (c : Connection) (stage : CallStage) :
    (s.move i c stage).stage? i = some stage := by
  rw [stage?_move (stage?_of_task htask), if_pos rfl]

theorem advance_wontWait (hclosed : s.connection.closed = true) {i : Nat}
    {task : CallTask} (htask : s.calls[i]? = some task)
    (hstage : WontWait task.stage) :
    ∃ stage, (s.advance i task).stage? i = some stage ∧ WontWait stage := by
  have hfault := checkOpen_of_closed hclosed
  have hstays : ∃ stage, s.stage? i = some stage ∧ WontWait stage :=
    ⟨task.stage, stage?_of_task htask, hstage⟩
  have hunsent (c : Connection) {stage : CallStage}
      (hstage : stage.isUnsent = true) :
      ∃ stage', (s.move i c stage).stage? i = some stage' ∧ WontWait stage' :=
    ⟨stage, stage?_move_self htask c stage, Or.inl hstage⟩
  have hended (c : Connection) : ∃ stage',
      (s.move i c (.ended (.error .disconnected))).stage? i = some stage' ∧
      WontWait stage' :=
    ⟨_, stage?_move_self htask c _, Or.inr (Or.inl rfl)⟩
  unfold advance
  cases hold : task.stage with
  | begun =>
      simp only [hfault]
      exact hended _
  | checked =>
      exact hunsent _ rfl
  | numbered call =>
      exact hunsent _ rfl
  | entered call =>
      simp only [hfault]
      exact hended _
  | rechecked call =>
      simp only [hfault]
      split
      · exact hstays
      · next f _ heq =>
          obtain rfl : ClientFault.disconnected = f := Except.error.inj heq
          exact hended _
      · next _ heq =>
          exact nomatch heq
  -- a call that writes or waits has found the connection open at its last check
  | writing call =>
      rw [hold] at hstage
      rcases hstage with h | h | h <;> cases h
  | waiting call =>
      rw [hold] at hstage
      rcases hstage with h | h | h <;> cases h
  | closing call closer =>
      simp only
      split
      · exact hended _
      · exact hstays
  | ended reply =>
      exact hstays
  | dropped =>
      exact hstays

theorem drop_wontWait {i : Nat} {task : CallTask}
    (htask : s.calls[i]? = some task) (hstage : WontWait task.stage) :
    ∃ stage, (s.drop i task).stage? i = some stage ∧ WontWait stage := by
  have hdropped (c : Connection) :
      ∃ stage, (s.move i c .dropped).stage? i = some stage ∧ WontWait stage :=
    ⟨_, stage?_move_self htask c _, Or.inr (Or.inr rfl)⟩
  unfold drop
  split
  · exact hdropped _
  · exact hdropped _
  · exact hdropped _
  · next call _ =>
      exact hdropped (s.connection.release call)
  · exact ⟨task.stage, stage?_of_task htask, hstage⟩

theorem timeOut_wontWait {i : Nat} {task : CallTask} (limit : Duration)
    (htask : s.calls[i]? = some task) (hstage : WontWait task.stage) :
    ∃ stage, (s.timeOut i limit task).stage? i = some stage ∧
    WontWait stage := by
  unfold timeOut
  split
  · next call hold =>
      rw [hold] at hstage
      rcases hstage with h | h | h <;> cases h
  · exact ⟨task.stage, stage?_of_task htask, hstage⟩

theorem onCall_wontWait {i k : Nat} {stage : CallStage} {f : CallTask → Traffic}
    (hi : s.stage? i = some stage) (hstage : WontWait stage)
    (hturn : ∀ task, Turn s (f task) k)
    (hown : ∀ task, s.calls[k]? = some task → WontWait task.stage →
      ∃ stage', (f task).stage? k = some stage' ∧ WontWait stage') :
    ∃ stage', (s.onCall k f).stage? i = some stage' ∧ WontWait stage' := by
  unfold onCall
  split
  · next task htask =>
      by_cases hik : i = k
      · subst hik
        rw [stage?_of_task htask] at hi
        exact hown task htask (by rwa [Option.some.inj hi])
      · exact ⟨stage, by rw [(hturn task).others i hik, hi], hstage⟩
  · exact ⟨stage, hi, hstage⟩

theorem stage?_advanceCloser (j : Nat) (closer : CloseStage) (i : Nat) :
    (s.advanceCloser j closer).stage? i = s.stage? i := by
  unfold Traffic.advanceCloser
  split
  · split <;> rfl
  · rfl
  · rfl
  · rfl
  · rfl

theorem step_wontWait (hclosed : s.connection.closed = true) {i : Nat}
    {stage : CallStage} (hi : s.stage? i = some stage) (hstage : WontWait stage)
    (st : TrafficStep) :
    ∃ stage', (s.step st).stage? i = some stage' ∧ WontWait stage' := by
  cases st with
  | call method params =>
      rcases stage?_call (s := s) method params i with hsame | ⟨hnone, -⟩
      · exact ⟨stage, hsame.trans hi, hstage⟩
      · rw [hnone] at hi
        exact nomatch hi
  | close =>
      exact ⟨stage, hi, hstage⟩
  | advanceCall k =>
      exact onCall_wontWait hi hstage (turn_advance s k) fun task htask =>
        advance_wontWait hclosed htask
  | advanceCloser j =>
      refine ⟨stage, ?_, hstage⟩
      rcases step_advanceCloser_cases s j with ⟨closer, -, heq⟩ | heq
      · rw [heq, stage?_advanceCloser, hi]
      · rw [heq, hi]
  | respond id outcome =>
      exact ⟨stage, hi, hstage⟩
  | timeOut k limit =>
      exact onCall_wontWait hi hstage (turn_timeOut s k limit) fun task htask =>
        timeOut_wontWait limit htask
  | drop k =>
      exact onCall_wontWait hi hstage (turn_drop s k) fun task htask =>
        drop_wontWait htask
  | breakPipe =>
      exact ⟨stage, hi, hstage⟩

theorem onCall_closed (hclosed : s.connection.closed = true) {k : Nat}
    {f : CallTask → Traffic} (hturn : ∀ task, Turn s (f task) k) :
    (s.onCall k f).connection.closed = true := by
  unfold onCall
  split
  · next task _ =>
      rw [(hturn task).closed, hclosed]
  · exact hclosed

theorem advanceCloser_closed (hclosed : s.connection.closed = true) (j : Nat)
    (closer : CloseStage) :
    (s.advanceCloser j closer).connection.closed = true := by
  unfold Traffic.advanceCloser
  split
  · rw [if_pos hclosed]
    exact hclosed
  · exact hclosed
  · exact hclosed
  · exact hclosed
  · exact hclosed

theorem step_closed (hclosed : s.connection.closed = true) (st : TrafficStep) :
    (s.step st).connection.closed = true := by
  cases st with
  | call method params =>
      exact hclosed
  | close =>
      exact hclosed
  | advanceCall k =>
      exact onCall_closed hclosed (turn_advance s k)
  | advanceCloser j =>
      rcases step_advanceCloser_cases s j with ⟨closer, -, heq⟩ | heq
      · rw [heq]
        exact advanceCloser_closed hclosed j closer
      · rwa [heq]
  | respond id outcome =>
      exact (Connection.complete_closed _ _ _).trans hclosed
  | timeOut k limit =>
      exact onCall_closed hclosed (turn_timeOut s k limit)
  | drop k =>
      exact onCall_closed hclosed (turn_drop s k)
  | breakPipe =>
      exact hclosed

theorem run_wontWait (hclosed : s.connection.closed = true) {i : Nat}
    {stage : CallStage} (hi : s.stage? i = some stage) (hstage : WontWait stage)
    (steps : List TrafficStep) :
    ∃ stage', (s.run steps).stage? i = some stage' ∧ WontWait stage' := by
  induction steps generalizing s stage with
  | nil =>
      exact ⟨stage, hi, hstage⟩
  | cons st rest ih =>
      obtain ⟨stage', hi', hstage'⟩ := step_wontWait hclosed hi hstage st
      exact ih (step_closed hclosed st) hi' hstage'

/-- A call whose next step is a check finds the connection closed and ends. -/
theorem advance_check (hclosed : s.connection.closed = true) {i : Nat}
    {stage : CallStage} (hi : s.stage? i = some stage)
    (hcheck : stage = .begun ∨ (∃ call, stage = .entered call) ∨
      (∃ call, stage = .rechecked call) ∧ s.writer = none) :
    (s.step (.advanceCall i)).stage? i =
      some (.ended (.error .disconnected)) := by
  have hfault := checkOpen_of_closed hclosed
  rw [stage?, Option.map_eq_some_iff] at hi
  obtain ⟨task, htask, hstage⟩ := hi
  simp only [step, onCall, htask]
  unfold advance
  rw [hstage]
  rcases hcheck with rfl | ⟨call, rfl⟩ | ⟨⟨call, rfl⟩, hwriter⟩
  · simp only [hfault]
    exact stage?_move_self htask _ _
  · simp only [hfault]
    exact stage?_move_self htask _ _
  · simp only [hfault, hwriter]
    exact stage?_move_self htask _ _

end Closed

section Finished

variable {s : Traffic}

theorem Settled.drained_of_finished (h : s.Settled) {j : Nat}
    (hj : s.closers[j]? = some (.finished true)) :
    s.Drained ∧ s.connection.closed = true ∧ ∀ call, ¬ s.Lost call := by
  refine ⟨⟨j, _, hj, rfl⟩, h.oneFirst.closed j _ hj rfl, ?_⟩
  rintro call ⟨k, rest, hk, -⟩
  obtain rfl := h.oneFirst.unique j k _ _ hj hk rfl rfl
  rw [hj] at hk
  exact nomatch hk

/-- Once the first closer has finished: each call whose request is sent has lost
its slot and has a reply; a slot that is left belongs to a call that has yet to
check the connection again; a call whose request is not sent will never wait,
whatever follows; and at its next check it ends. -/
theorem no_call_stranded (steps : List TrafficStep)
    (hfinished : ∃ j : Nat, (run {} steps).closers[j]? =
      some (.finished true)) :
    let s := run {} steps
    (∀ i stage call, s.stage? i = some stage → stage.sent? = some call →
      call ∉ s.connection.pending ∧
        ∃ reply, s.connection.reply? call = some reply ∧ IsCompletion reply) ∧
    (∀ call ∈ s.connection.pending, ∃ i, s.stage? i = some (.entered call)) ∧
    (∀ i stage, s.stage? i = some stage → stage.isUnsent = true → ∀ more,
      ∃ stage', (s.run more).stage? i = some stage' ∧ WontWait stage') ∧
    (∀ i stage, s.stage? i = some stage →
      (stage = .begun ∨ (∃ call, stage = .entered call) ∨
        (∃ call, stage = .rechecked call) ∧ s.writer = none) →
      (s.step (.advanceCall i)).stage? i =
        some (.ended (.error .disconnected))) := by
  obtain ⟨j, hj⟩ := hfinished
  have hsettled := settled_empty.run steps
  obtain ⟨hdrained, hclosed, hlost⟩ := hsettled.drained_of_finished hj
  refine ⟨?_, ?_, ?_, ?_⟩
  · intro i stage call hi hsent
    have hsure : (run {} steps).sure? i = some call := by
      rw [sure?_of_stage? hi, CallStage.sure?_of_sent? hsent]
    have hslot := hsettled.steady.drained hdrained i call hsure
    refine ⟨hslot, ?_⟩
    rcases hsettled.steady.served i call (slot?_of_sure? hsure) with
      (hmem | hreply) | hbefore
    · exact absurd hmem hslot
    · obtain ⟨reply, hreply⟩ := Option.isSome_iff_exists.mp hreply
      exact ⟨reply, hreply, hsettled.told.completion hreply⟩
    · exact absurd hbefore (hlost call)
  · intro call hmem
    obtain ⟨i, hi⟩ := hsettled.steady.owned call hmem
    obtain ⟨stage, hstage, hslot⟩ := Option.bind_eq_some_iff.mp hi
    rcases CallStage.entered_or_sure hslot with rfl | hsure
    · exact ⟨i, hstage⟩
    · rw [← sure?_of_stage? hstage] at hsure
      exact absurd hmem (hsettled.steady.drained hdrained i call hsure)
  · intro i stage hi hunsent more
    exact run_wontWait hclosed hi (Or.inl hunsent) more
  · intro i stage hi hcheck
    exact advance_check hclosed hi hcheck

/-- One call waits and another has just taken its slot when the connection is
closed. -/
def closedBetween : List TrafficStep :=
  [.call "a" .null, .call "b" .null] ++ List.replicate 6 (.advanceCall 0) ++
    List.replicate 3 (.advanceCall 1) ++ [.close] ++
      List.replicate 5 (.advanceCloser 0)

theorem no_call_stranded_between :
    (run {} closedBetween).closers[0]? = some (.finished true) ∧
      (∃ reply, (run {} closedBetween).connection.reply? 1 = some reply ∧
        IsCompletion reply) ∧
      ((run {} closedBetween).step (.advanceCall 1)).stage? 1 =
        some (.ended (.error .disconnected)) := by
  have hfinished :
      (run {} closedBetween).closers[0]? = some (.finished true) := rfl
  obtain ⟨hsent, -, -, hcheck⟩ := no_call_stranded closedBetween ⟨0, hfinished⟩
  refine ⟨hfinished, ?_, ?_⟩
  · exact (hsent 0 (.waiting 1) 1 rfl rfl).2
  · exact hcheck 1 (.entered 2) rfl (Or.inr (Or.inl ⟨2, rfl⟩))

end Finished

end Traffic

end CodeIntel
