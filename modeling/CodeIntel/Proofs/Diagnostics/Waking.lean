import CodeIntel.Diagnostics.Waiting
import CodeIntel.Proofs.Diagnostics.Latest

/-!
# Waiting for a report step by step

Tasks that wait for a report and tasks that publish reports run side by side, on
any documents and as many as there may be. A task that waits listens to a
signal, then reads the store and, if it finds no report on its document, sleeps
until it is woken and begins anew. A task that publishes stores its report and
then notifies all who listen. The steps of all of them come in any order.

Of the signal it is only assumed that to notify wakes everybody who listened
before. That nobody sleeps through a report then rests on the order of the
steps. The invariant is `Watched`: whoever found no report and was not notified
since has missed none that was announced, because whoever stored one after it
had looked is still to notify it.
-/

namespace CodeIntel

/-! # The signal -/

inductive SignalCall where
  /-- A task listens from now on, and no longer to what was before. -/
  | listen (waiter : Nat)
  | notifyAll
deriving DecidableEq

/-- Whether a task is woken after some calls, the last of which comes first. -/
abbrev Signal := List SignalCall → Nat → Bool

namespace Signal

/-- Whether all were notified since a task began to listen. -/
def notified : Signal
  | [], _ => false
  | .notifyAll :: earlier, waiter => earlier.contains (.listen waiter)
  | .listen other :: earlier, waiter =>
    if other = waiter then false else notified earlier waiter

/-- To notify wakes everybody who listened before. -/
def WakesAll (signal : Signal) : Prop :=
  ∀ calls waiter, notified calls waiter = true → signal calls waiter = true

theorem notified_listen_of_ne {i j : Nat} (h : j ≠ i)
    (calls : List SignalCall) :
    notified (.listen i :: calls) j = notified calls j := by
  rw [notified, if_neg (Ne.symm h)]

theorem notified_notifyAll {calls : List SignalCall} {i : Nat}
    (h : .listen i ∈ calls) :
    notified (.notifyAll :: calls) i = true :=
  List.contains_iff_mem.mpr h

end Signal

/-! # The tasks -/

/-- How far a task that waits for a report has come. -/
inductive WaitStage where
  | begun
  /-- It listens, and has not read the store since. -/
  | listening
  /-- It has read the store, and there was no report. -/
  | missed
  | parked
  | ended (found : List Diagnostic)
  /-- Its time was up. -/
  | gaveUp
deriving DecidableEq

namespace WaitStage

/-- Goes on by one step, when there is a certain report in the store or none,
and it is woken or not. -/
def next (report? : Option (List Diagnostic)) (woken : Bool) :
    WaitStage → WaitStage
  | .begun => .listening
  | .listening =>
    match report? with
    | some found => .ended found
    | none => .missed
  | .missed => .parked
  | .parked => if woken then .begun else .parked
  | .ended found => .ended found
  | .gaveUp => .gaveUp

def calls (waiter : Nat) : WaitStage → List SignalCall
  | .begun => [.listen waiter]
  | _ => []

def giveUp : WaitStage → WaitStage
  | .ended found => .ended found
  | _ => .gaveUp

def listens : WaitStage → Bool
  | .listening | .missed | .parked => true
  | _ => false

/-- Whether a task has found no report since it last began to listen. -/
def hasMissed : WaitStage → Bool
  | .missed | .parked => true
  | _ => false

/-- How many steps a task takes until it ends, if the report is there and it is
woken. -/
def stepsLeft : WaitStage → Nat
  | .missed => 4
  | .parked => 3
  | .begun => 2
  | .listening => 1
  | .ended _ | .gaveUp => 0

theorem listens_of_hasMissed {stage : WaitStage} (h : stage.hasMissed = true) :
    stage.listens = true := by
  cases stage <;> first | rfl | exact nomatch h

end WaitStage

/-- How far a task that publishes a report has come. -/
inductive PublishStage where
  | begun
  | stored
  /-- All were notified. -/
  | announced
deriving DecidableEq

structure Waiter where
  uri : Url
  stage : WaitStage := .begun
deriving DecidableEq

structure Publisher where
  report : PublishedDiagnostics
  stage : PublishStage := .begun
deriving DecidableEq

structure DiagnosticsTasks where
  store : DiagnosticsStore
  /-- What was done with the signal, the last of it first. -/
  calls : List SignalCall := []
  waiters : List Waiter := []
  publishers : List Publisher := []

inductive DiagnosticsEvent where
  | wait (uri : Url)
  | publish (report : PublishedDiagnostics)
  | waiterStep (i : Nat)
  | publisherStep (i : Nat)
  | timeUp (i : Nat)
deriving DecidableEq

namespace DiagnosticsTasks

def waiterStep (signal : Signal) (s : DiagnosticsTasks) (i : Nat) :
    DiagnosticsTasks :=
  match s.waiters[i]? with
  | none => s
  | some w =>
    { s with
      calls := w.stage.calls i ++ s.calls
      waiters := s.waiters.set i
        { w with
          stage := w.stage.next (s.store.report? w.uri) (signal s.calls i) } }

def publisherStep (s : DiagnosticsTasks) (i : Nat) : DiagnosticsTasks :=
  match s.publishers[i]? with
  | none => s
  | some p =>
    match p.stage with
    | .begun =>
      { s with
        store := s.store.publish p.report
        publishers := s.publishers.set i { p with stage := .stored } }
    | .stored =>
      { s with
        calls := .notifyAll :: s.calls
        publishers := s.publishers.set i { p with stage := .announced } }
    | .announced => s

def timeUp (s : DiagnosticsTasks) (i : Nat) : DiagnosticsTasks :=
  match s.waiters[i]? with
  | none => s
  | some w =>
    { s with waiters := s.waiters.set i { w with stage := w.stage.giveUp } }

def step (signal : Signal) (s : DiagnosticsTasks) :
    DiagnosticsEvent → DiagnosticsTasks
  | .wait uri => { s with waiters := s.waiters ++ [{ uri := uri }] }
  | .publish report =>
    { s with publishers := s.publishers ++ [{ report := report }] }
  | .waiterStep i => s.waiterStep signal i
  | .publisherStep i => s.publisherStep i
  | .timeUp i => s.timeUp i

def run (signal : Signal) (s : DiagnosticsTasks)
    (events : List DiagnosticsEvent) :
    DiagnosticsTasks :=
  events.foldl (step signal) s

/-! # Undisturbed tasks -/

/-- If nothing comes in between, the two steps of a task that publishes store
its report. -/
theorem publisherStep_twice {s : DiagnosticsTasks} {i : Nat}
    {report : PublishedDiagnostics}
    (h : s.publishers[i]? = some { report := report }) :
    ((s.publisherStep i).publisherStep i).store = s.store.publish report := by
  have hstored :
      (s.publisherStep i).publishers[i]? = some ⟨report, .stored⟩ := by
    rw [publisherStep, h]
    exact List.getElem?_set_self (List.getElem?_eq_some_iff.mp h).1
  rw [publisherStep, hstored, publisherStep, h]

/-- If nothing comes in between, the first three steps of a task that waits
settle it. -/
theorem settleTask_eq_next (w : DiagnosticsWatch) (t : DiagnosticsWait) :
    w.settleTask t =
      match (WaitStage.next (w.store.report? t.uri) false)^[3] .begun with
      | .ended found => { w with ended := w.ended ++ [(t.tag, some found)] }
      | _ =>
        if t.deadline ≤ w.clock then
          { w with ended := w.ended ++ [(t.tag, none)] }
        else { w with waiting := w.waiting ++ [t] } := by
  unfold DiagnosticsWatch.settleTask
  cases w.store.report? t.uri <;> rfl

/-! # The invariant -/

/-- No report on a document was announced, and if there is one, somebody is
still to announce it. -/
structure Unannounced (store : DiagnosticsStore) (publishers : List Publisher)
    (uri : Url) : Prop where
  none_announced : ∀ p ∈ publishers, p.report.uri = uri → p.stage ≠ .announced
  some_stored : (store.report? uri).isSome = true →
    ∃ p ∈ publishers, p.report.uri = uri ∧ p.stage = .stored

/-- A task that waits misses nothing. -/
structure Attends (s : DiagnosticsTasks) (i : Nat) (w : Waiter) : Prop where
  listens : w.stage.listens = true → .listen i ∈ s.calls
  unannounced : w.stage.hasMissed = true → Signal.notified s.calls i = false →
    Unannounced s.store s.publishers w.uri

structure Watched (s : DiagnosticsTasks) : Prop where
  stored : ∀ p ∈ s.publishers, p.stage ≠ .begun →
    (s.store.report? p.report.uri).isSome = true
  attends : ∀ i w, s.waiters[i]? = some w → s.Attends i w

variable {s : DiagnosticsTasks} {signal : Signal}

theorem watched_start (store : DiagnosticsStore) :
    Watched { store := store } where
  stored := fun _ h => nomatch h
  attends := fun _ _ h => nomatch h

theorem Attends.of_not_listens {i : Nat} {w : Waiter}
    (h : w.stage.listens = false) :
    s.Attends i w where
  listens := fun hlistens => nomatch h.symm.trans hlistens
  unannounced :=
    fun hmissed => nomatch h.symm.trans (WaitStage.listens_of_hasMissed hmissed)

theorem Watched.unannounced_of_no_report (h : s.Watched) {uri : Url}
    (hnone : s.store.report? uri = none) :
    Unannounced s.store s.publishers uri where
  none_announced := by
    rintro p hp rfl hannounced
    have hsome := h.stored p hp (by rw [hannounced]; decide)
    rw [hnone] at hsome
    exact nomatch hsome
  some_stored := by
    intro hsome
    rw [hnone] at hsome
    exact nomatch hsome

/-! # Steps of a task that waits -/

theorem notified_calls_append {i j : Nat} (h : j ≠ i) (stage : WaitStage)
    (earlier : List SignalCall) :
    Signal.notified (stage.calls i ++ earlier) j =
      Signal.notified earlier j := by
  cases stage with
  | begun =>
      exact Signal.notified_listen_of_ne h earlier
  | _ =>
      rfl

/-- If one task that waits is in another stage, it is enough to look at this
one. -/
theorem Watched.setWaiter (h : s.Watched) {i : Nat} {w w' : Waiter}
    (hw : s.waiters[i]? = some w) {calls : List SignalCall}
    (hattends : Attends { s with calls := calls } i w')
    (hothers : ∀ j v, j ≠ i → s.Attends j v →
      Attends { s with calls := calls } j v) :
    Watched { s with calls := calls, waiters := s.waiters.set i w' } where
  stored := h.stored
  attends := by
    intro j v hv
    by_cases hj : j = i
    · subst hj
      obtain rfl : w' = v := by
        simpa [(List.getElem?_eq_some_iff.mp hw).1] using hv
      exact ⟨hattends.listens, hattends.unannounced⟩
    · have hold : s.waiters[j]? = some v := by
        simpa [Ne.symm hj] using hv
      have hv := hothers j v hj (h.attends j v hold)
      exact ⟨hv.listens, hv.unannounced⟩

theorem Watched.attends_next (h : s.Watched) {i : Nat} {w : Waiter}
    (hw : s.waiters[i]? = some w) (woken : Bool) :
    Attends { s with calls := w.stage.calls i ++ s.calls } i
      { w with stage := w.stage.next (s.store.report? w.uri) woken } := by
  have hattends := h.attends i w hw
  obtain ⟨uri, stage⟩ := w
  cases stage with
  | begun =>
      exact ⟨fun _ => List.mem_cons_self, fun hmissed => nomatch hmissed⟩
  | listening =>
      cases hreport : s.store.report? uri with
      | some found =>
          exact .of_not_listens rfl
      | none =>
          exact ⟨fun _ =>
            hattends.listens rfl, fun _ _ => h.unannounced_of_no_report hreport⟩
  | missed =>
      exact ⟨fun _ => hattends.listens rfl, fun _ => hattends.unannounced rfl⟩
  | parked =>
      cases woken with
      | true =>
          exact .of_not_listens rfl
      | false =>
          exact ⟨fun _ =>
            hattends.listens rfl, fun _ => hattends.unannounced rfl⟩
  | ended found =>
      exact .of_not_listens rfl
  | gaveUp =>
      exact .of_not_listens rfl

theorem Watched.waiterStep (h : s.Watched) (signal : Signal) (i : Nat) :
    (s.waiterStep signal i).Watched := by
  rw [DiagnosticsTasks.waiterStep]
  split
  · exact h
  · next w hw =>
      refine h.setWaiter hw (h.attends_next hw _) ?_
      intro j v hj hv
      constructor
      · exact fun hlistens => List.mem_append_right _ (hv.listens hlistens)
      · intro hmissed hnotified
        rw [notified_calls_append hj] at hnotified
        exact hv.unannounced hmissed hnotified

theorem Watched.timeUp (h : s.Watched) (i : Nat) : (s.timeUp i).Watched := by
  rw [DiagnosticsTasks.timeUp]
  split
  · exact h
  · next w hw =>
      refine h.setWaiter hw (.of_not_listens ?_) fun _ _ _ hv => hv
      cases w.stage <;> rfl

theorem Watched.wait (h : s.Watched) (uri : Url) :
    (s.step signal (.wait uri)).Watched where
  stored := h.stored
  attends := by
    intro i w hw
    rcases Nat.lt_or_ge i s.waiters.length with hlt | hge
    · have hold : s.waiters[i]? = some w := by
        rwa [← List.getElem?_append_left hlt]
      exact ⟨(h.attends i w hold).listens, (h.attends i w hold).unannounced⟩
    · have hnew :
          [{ uri := uri : Waiter }][i - s.waiters.length]? = some w := by
        rwa [← List.getElem?_append_right hge]
      obtain rfl := List.mem_singleton.mp (List.mem_of_getElem? hnew)
      exact .of_not_listens rfl

/-! # Steps of a task that publishes -/

theorem mem_set_of_ne {α : Type} {l : List α} {i : Nat} {a b c : α}
    (hi : l[i]? = some a) (hc : c ∈ l) (hne : c ≠ a) : c ∈ l.set i b := by
  obtain ⟨j, hj⟩ := List.mem_iff_getElem?.mp hc
  have hij : i ≠ j := by
    rintro rfl
    exact hne (Option.some.inj (hj.symm.trans hi))
  exact List.mem_of_getElem? ((List.getElem?_set_ne hij).trans hj)

theorem Watched.publish (h : s.Watched) (report : PublishedDiagnostics) :
    (s.step signal (.publish report)).Watched where
  stored := by
    intro p hp hbegun
    rcases List.mem_append.mp hp with hp | hp
    · exact h.stored p hp hbegun
    · rw [List.mem_singleton.mp hp] at hbegun
      exact absurd rfl hbegun
  attends := by
    intro i w hw
    have hattends := h.attends i w hw
    refine ⟨hattends.listens, ?_⟩
    intro hmissed hnotified
    have hold := hattends.unannounced hmissed hnotified
    constructor
    · intro p hp huri
      rcases List.mem_append.mp hp with hp | hp
      · exact hold.none_announced p hp huri
      · rw [List.mem_singleton.mp hp]
        exact nofun
    · intro hsome
      obtain ⟨p, hp, hstored⟩ := hold.some_stored hsome
      exact ⟨p, List.mem_append_left _ hp, hstored⟩

theorem isSome_report?_publish {store : DiagnosticsStore} {uri : Url}
    (p : PublishedDiagnostics)
    (h : (store.report? uri).isSome = true ∨ uri = p.uri) :
    ((store.publish p).report? uri).isSome = true := by
  rw [DiagnosticsStore.report?_publish]
  split
  · rfl
  · next hne =>
      exact h.resolve_right hne

theorem Unannounced.publish {store : DiagnosticsStore}
    {publishers : List Publisher} {uri : Url}
    (h : Unannounced store publishers uri) {i : Nat}
    {report : PublishedDiagnostics}
    (hi : publishers[i]? = some { report := report }) :
    Unannounced (store.publish report)
      (publishers.set i ⟨report, .stored⟩) uri where
  none_announced := by
    intro p hp huri
    rcases List.mem_or_eq_of_mem_set hp with hp | rfl
    · exact h.none_announced p hp huri
    · exact nofun
  some_stored := by
    intro hsome
    by_cases heq : uri = report.uri
    · have hlt := (List.getElem?_eq_some_iff.mp hi).1
      exact ⟨_, List.mem_set hlt _, heq.symm, rfl⟩
    · rw [DiagnosticsStore.report?_publish, if_neg heq] at hsome
      obtain ⟨p, hp, huri, hstored⟩ := h.some_stored hsome
      have hne : p ≠ { report := report } := by
        rintro rfl
        exact nomatch hstored
      exact ⟨p, mem_set_of_ne hi hp hne, huri, hstored⟩

theorem Watched.publisherStep (h : s.Watched) (i : Nat) :
    (s.publisherStep i).Watched := by
  rw [DiagnosticsTasks.publisherStep]
  split
  · exact h
  · next p hp =>
      obtain ⟨report, stage⟩ := p
      cases stage with
      | begun =>
          constructor
          · intro p hp' hbegun
            rcases List.mem_or_eq_of_mem_set hp' with hp' | rfl
            · exact isSome_report?_publish _ (.inl (h.stored p hp' hbegun))
            · exact isSome_report?_publish _ (.inr rfl)
          · intro j w hw
            have hattends := h.attends j w hw
            exact ⟨hattends.listens,
              fun hmissed hnotified =>
                (hattends.unannounced hmissed hnotified).publish hp⟩
      | stored =>
          constructor
          · intro p hp' hbegun
            rcases List.mem_or_eq_of_mem_set hp' with hp' | rfl
            · exact h.stored p hp' hbegun
            · exact h.stored ⟨report, .stored⟩ (List.mem_of_getElem? hp) nofun
          · -- whoever has found no report listens, and so it is notified
            intro j w hw
            have hattends := h.attends j w hw
            refine ⟨fun hlistens =>
              List.mem_cons_of_mem _ (hattends.listens hlistens), ?_⟩
            intro hmissed hnotified
            have hlistens :=
              hattends.listens (WaitStage.listens_of_hasMissed hmissed)
            exact nomatch hnotified.symm.trans
              (Signal.notified_notifyAll hlistens)
      | announced =>
          exact h

/-! # Every run -/

theorem Watched.step (h : s.Watched) (signal : Signal)
    (event : DiagnosticsEvent) :
    (s.step signal event).Watched := by
  cases event with
  | wait uri =>
      exact h.wait uri
  | publish report =>
      exact h.publish report
  | waiterStep i =>
      exact h.waiterStep signal i
  | publisherStep i =>
      exact h.publisherStep i
  | timeUp i =>
      exact h.timeUp i

theorem Watched.run (h : s.Watched) (signal : Signal)
    (events : List DiagnosticsEvent) :
    (s.run signal events).Watched := by
  induction events generalizing s with
  | nil =>
      exact h
  | cons event rest ih =>
      exact ih (h.step signal event)

/-- A task that waits for a report is parked, and nothing wakes it so far. -/
structure Sleeps (signal : Signal) (s : DiagnosticsTasks) (i : Nat)
    (uri : Url) : Prop where
  parked : s.waiters[i]? = some ⟨uri, .parked⟩
  unwoken : signal s.calls i = false

theorem Watched.unannounced_of_sleeps (h : s.Watched) (hwakes : signal.WakesAll)
    {i : Nat} {uri : Url} (hsleeps : s.Sleeps signal i uri) :
    Unannounced s.store s.publishers uri := by
  have hnotified : Signal.notified s.calls i = false := by
    rw [Bool.eq_false_iff]
    intro hnotified
    exact nomatch hsleeps.unwoken.symm.trans (hwakes _ _ hnotified)
  exact (h.attends i _ hsleeps.parked).unannounced rfl hnotified

/-! # Until a task ends -/

def IsAnnounced (s : DiagnosticsTasks) (uri : Url) : Prop :=
  ∃ p ∈ s.publishers, p.report.uri = uri ∧ p.stage = .announced

theorem IsAnnounced.step {uri : Url} (h : s.IsAnnounced uri)
    (event : DiagnosticsEvent) :
    (s.step signal event).IsAnnounced uri := by
  obtain ⟨p, hp, huri, hannounced⟩ := h
  cases event with
  | wait _ =>
      exact ⟨p, hp, huri, hannounced⟩
  | publish report =>
      exact ⟨p, List.mem_append_left _ hp, huri, hannounced⟩
  | waiterStep i =>
      rw [DiagnosticsTasks.step, waiterStep]
      split <;> exact ⟨p, hp, huri, hannounced⟩
  | timeUp i =>
      rw [DiagnosticsTasks.step, timeUp]
      split <;> exact ⟨p, hp, huri, hannounced⟩
  | publisherStep i =>
      rw [DiagnosticsTasks.step, publisherStep]
      split
      · exact ⟨p, hp, huri, hannounced⟩
      · next q hq =>
          have hkept {stage : PublishStage} (hstage : q.stage ≠ .announced) :
              p ∈ s.publishers.set i { q with stage := stage } := by
            refine mem_set_of_ne hq hp ?_
            rintro rfl
            exact hstage hannounced
          split
          · next hbegun =>
              exact ⟨p, hkept (by rw [hbegun]; exact nofun), huri, hannounced⟩
          · next hstored =>
              exact ⟨p, hkept (by rw [hstored]; exact nofun), huri, hannounced⟩
          · exact ⟨p, hp, huri, hannounced⟩

theorem waiters_step_of_ne {i : Nat} {w : Waiter} (hw : s.waiters[i]? = some w)
    {event : DiagnosticsEvent} (hstep : event ≠ .waiterStep i)
    (htime : event ≠ .timeUp i) :
    (s.step signal event).waiters[i]? = some w := by
  cases event with
  | wait uri =>
      exact (List.getElem?_append_left
        (List.getElem?_eq_some_iff.mp hw).1).trans hw
  | publish report =>
      exact hw
  | waiterStep j =>
      rw [step, waiterStep]
      split
      · exact hw
      · refine (List.getElem?_set_ne ?_).trans hw
        rintro rfl
        exact hstep rfl
  | timeUp j =>
      rw [step, timeUp]
      split
      · exact hw
      · refine (List.getElem?_set_ne ?_).trans hw
        rintro rfl
        exact htime rfl
  | publisherStep j =>
      rw [step, publisherStep]
      split
      · exact hw
      · split <;> exact hw

theorem Watched.stepsLeft_waiterStep (h : s.Watched) (hwakes : signal.WakesAll)
    {i : Nat} {uri : Url} {stage : WaitStage}
    (hw : s.waiters[i]? = some ⟨uri, stage⟩) (hpatient : stage ≠ .gaveUp)
    (hannounced : s.IsAnnounced uri) :
    ∃ stage', (s.waiterStep signal i).waiters[i]? = some ⟨uri, stage'⟩ ∧
    stage' ≠ .gaveUp ∧
      stage'.stepsLeft = stage.stepsLeft - 1 := by
  obtain ⟨p, hp, rfl, hstage⟩ := hannounced
  refine ⟨stage.next (s.store.report? p.report.uri) (signal s.calls i), ?_, ?_⟩
  · rw [DiagnosticsTasks.waiterStep, hw]
    exact List.getElem?_set_self (List.getElem?_eq_some_iff.mp hw).1
  cases stage with
  | begun =>
      exact ⟨nofun, rfl⟩
  | listening =>
      have hsome := h.stored p hp (by rw [hstage]; exact nofun)
      obtain ⟨found, hfound⟩ := Option.isSome_iff_exists.mp hsome
      rw [hfound]
      exact ⟨nofun, rfl⟩
  | missed =>
      exact ⟨nofun, rfl⟩
  | parked =>
      cases hwoken : signal s.calls i with
      | true =>
          exact ⟨nofun, rfl⟩
      | false =>
          have hunannounced := h.unannounced_of_sleeps hwakes ⟨hw, hwoken⟩
          exact absurd hstage (hunannounced.none_announced p hp rfl)
  | ended found =>
      exact ⟨nofun, rfl⟩
  | gaveUp =>
      exact absurd rfl hpatient

/-- So a task that is not out of time has ended with a report after four of its
steps, whatever the others do meanwhile. -/
theorem Watched.ends_once_announced (h : s.Watched) (hwakes : signal.WakesAll)
    {i : Nat} {uri : Url} {stage : WaitStage}
    (hw : s.waiters[i]? = some ⟨uri, stage⟩) (hpatient : stage ≠ .gaveUp)
    (hannounced : s.IsAnnounced uri) {events : List DiagnosticsEvent}
    (htime : .timeUp i ∉ events)
    (hsteps : stage.stepsLeft ≤ events.count (.waiterStep i)) :
    ∃ found, (s.run signal events).waiters[i]? = some ⟨uri, .ended found⟩ := by
  induction events generalizing s stage with
  | nil =>
      cases stage with
      | ended found =>
          exact ⟨found, hw⟩
      | gaveUp =>
          exact absurd rfl hpatient
      | _ =>
          exact absurd hsteps (Nat.not_succ_le_zero _)
  | cons event rest ih =>
      obtain ⟨hfirst, hrest⟩ := not_or.mp (mt List.mem_cons.mpr htime)
      by_cases hevent : event = .waiterStep i
      · subst hevent
        obtain ⟨stage', hw', hpatient', hleft⟩ :=
          h.stepsLeft_waiterStep hwakes hw hpatient hannounced
        refine ih (h.step signal _) hw' hpatient' (hannounced.step _) hrest ?_
        rw [List.count_cons_self] at hsteps
        omega
      · refine ih (h.step signal event)
          (waiters_step_of_ne hw hevent (Ne.symm hfirst)) hpatient
          (hannounced.step event) hrest ?_
        rwa [List.count_cons_of_ne hevent] at hsteps

/-! # However the steps come -/

/-- Whatever was in the store before, and however the steps of the tasks come
one after the other: as long as a task sleeps, no report on its document was
announced, and if there is one in the store, then somebody is still to announce
it. Once one was announced, the task ends with a report after a few of its own
steps, whatever the others do meanwhile, unless its time is up. -/
theorem nobody_sleeps_through_a_report (hwakes : signal.WakesAll)
    (store : DiagnosticsStore) (events : List DiagnosticsEvent) :
    (∀ i uri, Sleeps signal (run signal { store := store } events) i uri →
      Unannounced (run signal { store := store } events).store
        (run signal { store := store } events).publishers uri) ∧
    (∀ i uri stage, (run signal { store := store } events).waiters[i]? =
      some ⟨uri, stage⟩ → stage ≠ .gaveUp →
      IsAnnounced (run signal { store := store } events) uri →
      ∀ later, .timeUp i ∉ later →
      stage.stepsLeft ≤ later.count (.waiterStep i) →
        ∃ found, (run signal { store := store } (events ++ later)).waiters[i]? =
          some ⟨uri, .ended found⟩) := by
  have hwatched := (watched_start store).run signal events
  constructor
  · intro i uri hsleeps
    exact hwatched.unannounced_of_sleeps hwakes hsleeps
  · intro i uri stage hw hpatient hannounced later htime hsteps
    rw [run, List.foldl_append]
    exact hwatched.ends_once_announced hwakes hw hpatient hannounced
      htime hsteps

/-- A task waits for a report on `file:///a`. A report on `file:///b` wakes it
once in vain, and then there is a report for it in the store. -/
def wokenInVain : List DiagnosticsEvent :=
  [.wait ⟨"file:///a"⟩, .waiterStep 0, .waiterStep 0, .waiterStep 0,
    .publish ⟨⟨"file:///b"⟩, []⟩, .publisherStep 0, .publisherStep 0,
    .waiterStep 0, .waiterStep 0, .waiterStep 0, .waiterStep 0,
    .publish ⟨⟨"file:///a"⟩, []⟩, .publisherStep 1]

/-- Its publisher is still to announce the report, and when it has, the task
needs three steps. -/
theorem woken_in_vain_ends :
    Signal.notified.WakesAll ∧
    Sleeps Signal.notified (run Signal.notified { store := [] } wokenInVain) 0
      ⟨"file:///a"⟩ ∧
    (∃ p ∈ (run Signal.notified { store := [] } wokenInVain).publishers,
      p.report.uri = ⟨"file:///a"⟩ ∧ p.stage = .stored) ∧
    IsAnnounced (run Signal.notified { store := [] }
      (wokenInVain ++ [.publisherStep 1])) ⟨"file:///a"⟩ ∧
    ∃ found,
    (run Signal.notified { store := [] } (wokenInVain ++ [.publisherStep 1] ++
      [.waiterStep 0, .waiterStep 0, .waiterStep 0])).waiters[0]? =
        some ⟨⟨"file:///a"⟩, .ended found⟩ := by
  have hwakes : Signal.notified.WakesAll := fun _ _ h => h
  have hsleeps :
      Sleeps Signal.notified (run Signal.notified { store := [] } wokenInVain) 0
      ⟨"file:///a"⟩ := ⟨by decide, by decide⟩
  have hannounced : IsAnnounced (run Signal.notified { store := [] }
      (wokenInVain ++ [.publisherStep 1])) ⟨"file:///a"⟩ :=
    ⟨⟨⟨⟨"file:///a"⟩, []⟩, .announced⟩, by decide, rfl, rfl⟩
  refine ⟨hwakes, hsleeps, ?_, hannounced, ?_⟩
  · exact ((nobody_sleeps_through_a_report hwakes [] wokenInVain).1 _ _
      hsleeps).some_stored (by decide)
  · exact (nobody_sleeps_through_a_report hwakes []
      (wokenInVain ++ [.publisherStep 1])).2 0 _ .parked
      (by decide) nofun hannounced _ (by decide) (by decide)

end DiagnosticsTasks
end CodeIntel
