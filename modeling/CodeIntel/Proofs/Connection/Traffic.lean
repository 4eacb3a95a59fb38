import CodeIntel.Proofs.Connection.Slots

/-!
# Interleaved calls

A call does not happen at once, nor does the closing of a connection. Here both
are cut into the steps between which others may run: a call checks three times
that the connection is open, before it takes a number, once its slot is in
place, and once it has the writer; and whoever closes the connection first marks
it, then takes all slots, then fails the calls that had them one by one.
-/

namespace CodeIntel

open Connection (number)

/-! # Calls and closers -/

/-- How far a call has come. Its number is that of the connection. -/
inductive CallStage where
  | begun
  | checked
  | numbered (call : Nat)
  | entered (call : Nat)
  | rechecked (call : Nat)
  /-- It has the writer, and has found the connection open a third time. -/
  | writing (call : Nat)
  | waiting (call : Nat)
  /-- Its write has failed, and it closes the connection. -/
  | closing (call closer : Nat)
  | ended (reply : Reply)
  | dropped

/-- How far somebody has come who closes the connection. -/
inductive CloseStage where
  | begun
  /-- It was the first to mark the connection as gone. -/
  | first
  /-- It has taken all slots, and fails the calls that are left. -/
  | failing (lost : List Nat)
  | finished (first : Bool)

namespace CallStage

def number? : CallStage → Option Nat
  | .numbered call | .entered call | .rechecked call | .writing
      call | .waiting call
  | .closing call _ => some call
  | _ => none

def slot? : CallStage → Option Nat
  | .entered call | .rechecked call | .writing call | .waiting call | .closing
      call _ => some call
  | _ => none

/-- The call, if it has found the connection open with its slot in place. -/
def sure? : CallStage → Option Nat
  | .rechecked call | .writing call | .waiting call | .closing call _ =>
    some call
  | _ => none

def sent? : CallStage → Option Nat
  | .writing call | .waiting call => some call
  | _ => none

/-- Whether the request is yet to be sent, or could not be. -/
def isUnsent : CallStage → Bool
  | .begun | .checked | .numbered _ | .entered _ | .rechecked _ | .closing
      _ _ => true
  | _ => false

theorem number?_of_slot? {stage : CallStage} {call : Nat}
    (h : stage.slot? = some call) :
    stage.number? = some call := by
  cases stage <;> first | exact h | cases h

theorem entered_or_sure {stage : CallStage} {call : Nat}
    (h : stage.slot? = some call) :
    stage = .entered call ∨ stage.sure? = some call := by
  cases stage <;> first | exact Or.inr h | cases h
  exact Or.inl rfl

theorem slot?_of_sure? {stage : CallStage} {call : Nat}
    (h : stage.sure? = some call) :
    stage.slot? = some call := by
  cases stage <;> first | exact h | cases h

theorem sure?_of_sent? {stage : CallStage} {call : Nat}
    (h : stage.sent? = some call) :
    stage.sure? = some call := by
  cases stage <;> first | exact h | cases h

end CallStage

namespace CloseStage

def isFirst : CloseStage → Bool
  | .first | .failing _ | .finished true => true
  | _ => false

def hasDrained : CloseStage → Bool
  | .failing _ | .finished true => true
  | _ => false

theorem isFirst_of_hasDrained {stage : CloseStage}
    (h : stage.hasDrained = true) :
    stage.isFirst = true := by
  cases stage with
  | begun => cases h
  | first => cases h
  | failing lost => rfl
  | finished first =>
      cases first with
      | true => rfl
      | false => cases h

end CloseStage

/-! # Steps -/

structure CallTask where
  method : String
  params : Json
  stage : CallStage := .begun

structure Traffic where
  connection : Connection := {}
  /-- The call that has the writer. -/
  writer : Option Nat := none
  calls : List CallTask := []
  closers : List CloseStage := []

/-- What happens next. Calls and closers are named by their places. -/
inductive TrafficStep where
  | call (method : String) (params : Json)
  | close
  | advanceCall (i : Nat)
  | advanceCloser (j : Nat)
  | respond (id : Nat) (outcome : Outcome)
  | timeOut (i : Nat) (limit : Duration)
  | drop (i : Nat)
  | breakPipe

namespace Traffic

def move (s : Traffic) (i : Nat) (c : Connection) (stage : CallStage) :
    Traffic :=
  { s with connection := c, calls := s.calls.modify i fun task =>
    { task with stage := stage } }

def leave (s : Traffic) (i call : Nat) (stage : CallStage) : Traffic :=
  s.move i (s.connection.release call) stage

/-- The next step of a call. It does nothing while it has to wait. -/
def advance (s : Traffic) (i : Nat) (task : CallTask) : Traffic :=
  match task.stage with
  | .begun =>
    match s.connection.checkOpen with
    | .error f => s.move i s.connection (.ended (.error f))
    | .ok () => s.move i s.connection .checked
  | .checked => s.move i s.connection.allot.2 (.numbered s.connection.allot.1)
  | .numbered call => s.move i (s.connection.enter call) (.entered call)
  | .entered call =>
    match s.connection.checkOpen with
    | .error f => s.leave i call (.ended (.error f))
    | .ok () => s.move i s.connection (.rechecked call)
  | .rechecked call =>
    match s.writer, s.connection.checkOpen with
    | some _, _ => s
    | none, .error f => s.leave i call (.ended (.error f))
    | none, .ok () =>
      { s.move i s.connection (.writing call) with writer := some i }
  | .writing call =>
    match s.connection.put?
      (.request (number call) task.method task.params) with
    | some c => { s.move i c (.waiting call) with writer := none }
    | none =>
      { s.move i s.connection (.closing call s.closers.length) with
        writer := none, closers := s.closers ++ [.begun] }
  | .closing call closer =>
    match s.closers[closer]? with
    | some (.finished _) => s.leave i call (.ended (.error .disconnected))
    | _ => s
  | .waiting call =>
    match s.connection.reply? call with
    | some reply => s.leave i call (.ended reply)
    | none => s
  | .ended _ | .dropped => s

def drop (s : Traffic) (i : Nat) (task : CallTask) : Traffic :=
  match task.stage with
  | .begun => s.move i s.connection .dropped
  | .rechecked call | .waiting call => s.leave i call .dropped
  | .writing call => { s.leave i call .dropped with writer := none }
  | _ => s

def timeOut (s : Traffic) (i : Nat) (limit : Duration) (task : CallTask) :
    Traffic :=
  match task.stage with
  | .waiting call =>
    match s.connection.reply? call with
    | some _ => s
    | none => s.leave i call (.ended (.error (.timeout limit)))
  | _ => s

def advanceCloser (s : Traffic) (j : Nat) : CloseStage → Traffic
  | .begun =>
    if s.connection.closed then
      { s with closers := s.closers.set j (.finished false) }
    else
      { s with
        connection := s.connection.shut, closers := s.closers.set j .first }
  | .first =>
    { s with
      connection := s.connection.drain.2
      closers := s.closers.set j (.failing s.connection.drain.1) }
  | .failing (call :: rest) =>
    { s with
      connection :=
        s.connection.fail call, closers := s.closers.set j (.failing rest) }
  | .failing [] => { s with closers := s.closers.set j (.finished true) }
  | .finished _ => s

def onCall (s : Traffic) (i : Nat) (f : CallTask → Traffic) : Traffic :=
  match s.calls[i]? with
  | some task => f task
  | none => s

def step (s : Traffic) : TrafficStep → Traffic
  | .call method params =>
    { s with calls := s.calls ++ [⟨method, params, .begun⟩] }
  | .close => { s with closers := s.closers ++ [.begun] }
  | .advanceCall i => s.onCall i (s.advance i)
  | .advanceCloser j =>
    match s.closers[j]? with
    | some stage => s.advanceCloser j stage
    | none => s
  | .respond id outcome =>
    { s with connection := s.connection.complete id outcome }
  | .timeOut i limit => s.onCall i (s.timeOut i limit)
  | .drop i => s.onCall i (s.drop i)
  | .breakPipe => { s with connection := s.connection.breakPipe }

def run (s : Traffic) (steps : List TrafficStep) : Traffic :=
  steps.foldl step s

theorem run_append (s : Traffic) (steps more : List TrafficStep) :
    s.run (steps ++ more) = (s.run steps).run more :=
  List.foldl_append

/-! # Undisturbed calls and closers -/

theorem step_advanceCloser {s : Traffic} {j : Nat} {stage : CloseStage}
    (hj : s.closers[j]? = some stage) :
    s.step (.advanceCloser j) = s.advanceCloser j stage := by
  simp only [step, hj]

theorem step_advanceCloser_cases (s : Traffic) (j : Nat) :
    (∃ stage, s.closers[j]? = some stage ∧
      s.step (.advanceCloser j) = s.advanceCloser j stage) ∨
    s.step (.advanceCloser j) = s := by
  cases hj : s.closers[j]? with
  | some stage =>
      exact Or.inl ⟨stage, rfl, step_advanceCloser hj⟩
  | none =>
      apply Or.inr
      simp only [step, hj]

theorem run_failing {s : Traffic} {j : Nat} {lost : List Nat}
    (hj : s.closers[j]? = some (.failing lost)) :
    s.run (List.replicate (lost.length + 1) (.advanceCloser j)) =
      { s with
        connection := lost.foldl Connection.fail s.connection
        closers := s.closers.set j (.finished true) } := by
  have hlength := (List.getElem?_eq_some_iff.mp hj).1
  induction lost generalizing s with
  | nil =>
      show s.step (.advanceCloser j) = _
      rw [step_advanceCloser hj]
      rfl
  | cons call rest ih =>
      show (s.step (.advanceCloser j)).run
        (List.replicate (rest.length + 1) _) = _
      rw [step_advanceCloser hj]
      have hnext : (s.advanceCloser j (.failing (call :: rest))).closers[j]? =
          some (.failing rest) :=
        List.getElem?_set_self hlength
      rw [ih hnext (by simpa [advanceCloser] using hlength)]
      simp [advanceCloser, List.set_set]

/-- A closer that nobody disturbs closes the connection. -/
theorem run_close {s : Traffic} {j : Nat} (hj : s.closers[j]? = some .begun) :
    ∃ n, s.run (List.replicate n (.advanceCloser j)) =
      { s with
        connection := s.connection.close
        closers := s.closers.set j (.finished !s.connection.closed) } := by
  have hlength := (List.getElem?_eq_some_iff.mp hj).1
  cases hclosed : s.connection.closed with
  | true =>
      refine ⟨1, ?_⟩
      show s.step (.advanceCloser j) = _
      rw [step_advanceCloser hj, Connection.close_of_closed hclosed]
      simp [advanceCloser, hclosed]
  | false =>
      have hall :
          s.connection.pending.filter (fun _ => true) = s.connection.pending :=
        List.filter_eq_self.mpr fun _ _ => rfl
      have hfirst : s.step (.advanceCloser j) =
          { s with
            connection :=
              s.connection.shut, closers := s.closers.set j .first } := by
        rw [step_advanceCloser hj]
        simp [advanceCloser, hclosed]
      have hsecond : (s.step (.advanceCloser j)).step (.advanceCloser j) =
          { s with
            connection := s.connection.shut.drain.2
            closers := s.closers.set j (.failing s.connection.pending) } := by
        have hj' : (s.step (.advanceCloser j)).closers[j]? = some .first := by
          rw [hfirst]
          exact List.getElem?_set_self hlength
        rw [step_advanceCloser hj', hfirst]
        simp [advanceCloser, Connection.shut, Connection.drain,
          Connection.removeSlots, hall, List.set_set]
      refine ⟨s.connection.pending.length + 1 + 1 + 1, ?_⟩
      show ((s.step (.advanceCloser j)).step (.advanceCloser j)).run
        (List.replicate (s.connection.pending.length + 1) _) = _
      rw [hsecond, run_failing (List.getElem?_set_self hlength)]
      simp [Connection.close, hclosed, Connection.shut, Connection.drain,
        Connection.removeSlots, hall, List.set_set]

def withStage (s : Traffic) (i : Nat) (c : Connection) (stage : CallStage)
    (writer : Option Nat) (closers : List CloseStage) : Traffic :=
  { s.move i c stage with writer := writer, closers := closers }

section Undisturbed

variable {s : Traffic} {i : Nat} {task : CallTask} {c : Connection}
  {stage : CallStage} {writer : Option Nat} {closers : List CloseStage}

theorem connection_withStage :
    (s.withStage i c stage writer closers).connection = c := rfl

theorem writer_withStage :
    (s.withStage i c stage writer closers).writer = writer := rfl

theorem move_withStage (c' : Connection) (stage' : CallStage) :
    (s.withStage i c stage writer closers).move i c' stage' =
      s.withStage i c' stage' writer closers := by
  simp [withStage, move, List.modify_modify_eq, Function.comp_def]

theorem step_withStage (htask : s.calls[i]? = some task) :
    (s.withStage i c stage writer closers).step (.advanceCall i) =
      (s.withStage i c stage writer closers).advance i
        { task with stage := stage } := by
  simp [step, onCall, withStage, move, htask]

theorem withStage_self (htask : s.calls[i]? = some task) :
    s.withStage i s.connection task.stage s.writer s.closers = s := by
  have hcalls :
      s.calls.modify i (fun t => { t with stage := task.stage }) = s.calls := by
    refine List.ext_getElem? fun k => ?_
    rw [List.getElem?_modify]
    by_cases hk : i = k
    · subst hk
      simp [htask]
    · cases s.calls[k]? <;> simp [hk]
  simp [withStage, move, hcalls]

theorem run_to_write (htask : s.calls[i]? = some task)
    (hopen : c.closed = false) :
    (s.withStage i c .begun none closers).run
      (List.replicate 5 (.advanceCall i)) =
      s.withStage i c.entered (.writing c.nextCall) (some i) closers := by
  have hcheck : c.checkOpen = .ok () := by
    simp [Connection.checkOpen, hopen]
  have hcheck' : c.entered.checkOpen = .ok () := by
    simp [Connection.checkOpen, hopen]
  have hchecked : (s.withStage i c .begun none closers).step (.advanceCall i) =
      s.withStage i c .checked none closers := by
    rw [step_withStage htask]
    simp only [advance, connection_withStage, hcheck, move_withStage]
  have hnumbered :
      (s.withStage i c .checked none closers).step (.advanceCall i) =
      s.withStage i c.allot.2 (.numbered c.nextCall) none closers := by
    rw [step_withStage htask]
    exact move_withStage c.allot.2 (.numbered c.nextCall)
  have hentered :
      (s.withStage i c.allot.2 (.numbered c.nextCall) none closers).step
        (.advanceCall i) =
        s.withStage i c.entered (.entered c.nextCall) none closers := by
    rw [step_withStage htask]
    exact move_withStage c.entered (.entered c.nextCall)
  have hrechecked :
      (s.withStage i c.entered (.entered c.nextCall) none closers).step
        (.advanceCall i) =
        s.withStage i c.entered (.rechecked c.nextCall) none closers := by
    rw [step_withStage htask]
    simp only [advance, connection_withStage, hcheck', move_withStage]
  have hwriting :
      (s.withStage i c.entered (.rechecked c.nextCall) none closers).step
        (.advanceCall i) =
        s.withStage i c.entered (.writing c.nextCall) (some i) closers := by
    rw [step_withStage htask]
    simp only [advance, connection_withStage, writer_withStage, hcheck',
      move_withStage]
    rfl
  simp only [List.replicate, run, List.foldl_cons, List.foldl_nil, hchecked,
    hnumbered, hentered, hrechecked, hwriting]

theorem step_write (htask : s.calls[i]? = some task)
    (hbroken : c.broken = false) (closers : List CloseStage) (call : Nat) :
    (s.withStage i c (.writing call) (some i) closers).step (.advanceCall i) =
      s.withStage i { c with
        wire := c.wire ++ [.request (number call) task.method task.params] }
        (.waiting call) none closers := by
  rw [step_withStage htask]
  simp only [advance, connection_withStage, Connection.put?, hbroken,
    move_withStage]
  rfl

/-- A write that fails is the beginning of another closing. -/
theorem step_failed_write (htask : s.calls[i]? = some task)
    (hbroken : c.broken = true) (call : Nat) :
    (s.withStage i c (.writing call) (some i) closers).step (.advanceCall i) =
      s.withStage i c (.closing call closers.length) none
        (closers ++ [.begun]) := by
  rw [step_withStage htask]
  simp only [advance, connection_withStage, Connection.put?, hbroken, if_true,
    move_withStage]
  rfl

theorem step_closing (htask : s.calls[i]? = some task) (call : Nat)
    {closer : Nat} {first : Bool}
    (hcloser : closers[closer]? = some (.finished first)) :
    (s.withStage i c (.closing call closer) none closers).step
      (.advanceCall i) = s.withStage i (c.release call)
      (.ended (.error .disconnected)) none closers := by
  rw [step_withStage htask]
  have hfinished :
      (s.withStage i c (.closing call closer) none closers).closers[closer]? =
      some (.finished first) := hcloser
  simp only [advance, hfinished, leave, connection_withStage, move_withStage]

theorem run_failed_write (htask : s.calls[i]? = some task)
    (hopen : c.closed = false) (hbroken : c.broken = true)
    (closers : List CloseStage) (call : Nat) :
    ∃ n, (s.withStage i c (.writing call) (some i) closers).run
      (.advanceCall i ::
        (List.replicate n (.advanceCloser closers.length) ++
          [.advanceCall i])) =
      s.withStage i (c.close.release call) (.ended (.error .disconnected)) none
        (closers ++ [.finished true]) := by
  have hbegun :
      (closers ++ [CloseStage.begun])[closers.length]? = some .begun := by
    simp
  have hset :
      (closers ++ [CloseStage.begun]).set closers.length (.finished true) =
      closers ++ [.finished true] := by
    simp
  have hlast : (closers ++ [CloseStage.finished true])[closers.length]? =
      some (.finished true) := by
    simp
  obtain ⟨n, hclose⟩ := run_close
    (s := s.withStage i c (.closing call closers.length) none
      (closers ++ [.begun])) hbegun
  rw [connection_withStage, hopen, Bool.not_false] at hclose
  refine ⟨n, ?_⟩
  show ((s.withStage i c (.writing call) (some i) closers).step
    (.advanceCall i)).run _ = _
  rw [step_failed_write htask hbroken, run_append, hclose]
  have hended := step_closing (c := c.close) htask call hlast
  rw [← hset] at hended ⊢
  exact hended

/-- A call that nobody disturbs starts as a whole: it comes to wait, or it ends
with the fault. -/
theorem run_call (htask : s.calls[i]? = some task)
    (hbegun : task.stage = .begun) (hwriter : s.writer = none) :
    ∃ steps more, (∀ st ∈ steps, st = .advanceCall i ∨
      st = .advanceCloser s.closers.length) ∧ s.run steps =
        s.withStage i (s.connection.startCall task.method task.params).2
        (match (s.connection.startCall task.method task.params).1 with
          | .ok call => .waiting call
          | .error f => .ended (.error f))
        none (s.closers ++ more) := by
  have hself : s = s.withStage i s.connection .begun none s.closers := by
    have h := withStage_self htask
    rw [hbegun, hwriter] at h
    exact h.symm
  have hcalls (n : Nat) : ∀ st ∈ List.replicate n (TrafficStep.advanceCall i),
      st = .advanceCall i ∨ st = .advanceCloser s.closers.length :=
    fun st hst => Or.inl (List.mem_replicate.mp hst).2
  have hwrite (hopen : s.connection.closed = false) :
      s.run (List.replicate 5 (.advanceCall i)) =
        s.withStage i s.connection.entered (.writing s.connection.nextCall)
          (some i) s.closers := by
    rw [← run_to_write htask hopen, ← hself]
  rcases Connection.startCall_cases s.connection task.method task.params with
    ⟨hopen, hbroken, heq⟩ | ⟨hopen, hbroken, heq⟩ | ⟨hclosed, heq⟩
  · refine ⟨List.replicate 5 (.advanceCall i) ++ [.advanceCall i], [],
      hcalls 6, ?_⟩
    have hbroken' : s.connection.entered.broken = false := by
      rw [Connection.entered_broken, hbroken]
    have hwritten := step_write htask hbroken' s.closers s.connection.nextCall
    rw [Connection.entered_wire] at hwritten
    rw [heq, run_append, hwrite hopen, List.append_nil]
    exact hwritten
  · have hopen' : s.connection.entered.closed = false := by
      rw [Connection.entered_closed, hopen]
    obtain ⟨n, hfailed⟩ :=
      run_failed_write htask hopen' (by simpa using hbroken) s.closers
      s.connection.nextCall
    refine ⟨List.replicate 5 (.advanceCall i) ++ .advanceCall i ::
      (List.replicate n (.advanceCloser s.closers.length) ++ [.advanceCall i]),
      [.finished true], ?_, ?_⟩
    · intro st hst
      rcases List.mem_append.mp hst with hst | hst
      · exact hcalls 5 st hst
      · rcases List.mem_cons.mp hst with rfl | hst
        · exact Or.inl rfl
        · rcases List.mem_append.mp hst with hst | hst
          · exact Or.inr (List.mem_replicate.mp hst).2
          · exact Or.inl (List.mem_singleton.mp hst)
    · rw [heq, run_append, hwrite hopen]
      exact hfailed
  · refine ⟨[.advanceCall i], [], by simp, ?_⟩
    rw [heq, List.append_nil]
    show s.step (.advanceCall i) = _
    simp only [step, onCall, htask, advance, hbegun, Connection.checkOpen,
      hclosed, if_true]
    simp only [withStage, move, hwriter]

end Undisturbed

end Traffic

end CodeIntel
