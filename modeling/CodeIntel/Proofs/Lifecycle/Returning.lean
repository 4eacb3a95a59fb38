import CodeIntel.Proofs.Client.Opening
import CodeIntel.Proofs.Lifecycle.Closing

/-!
# What callers who close a client are told

A teardown that takes the steps it still has to take announces an outcome, and a
caller who then takes its own returns that outcome. Neither depends on what else
happens between those steps.

Both are one argument. Whoever acts keeps a list of the steps it still has to
take; its own next step takes the first of them off, and a step of anybody else
leaves the list as it is.
-/

namespace CodeIntel

/-! # Remaining steps -/

namespace Closer

variable {σ : Type}

/-- What the caller numbered `i` still has to do before it returns. -/
def rest (i : Nat) : Closer → List (CloseEvent σ)
  | .subscribed => [.begin_ i, .wake i, .read i]
  | .waiting => [.wake i, .read i]
  | .woken => [.read i]
  | .returned _ | .dropped => []

def next (outcome : CloseOutcome) : Closer → Closer
  | .subscribed => .waiting
  | .waiting => .woken
  | .woken => .returned outcome
  | closer => closer

theorem rest_next (i : Nat) (outcome : CloseOutcome) (closer : Closer) :
    (closer.next outcome).rest i =
      (closer.rest i : List (CloseEvent σ)).tail := by
  cases closer <;> rfl

theorem next_ne_dropped {outcome : CloseOutcome} {closer : Closer}
    (h : closer ≠ .dropped) :
    closer.next outcome ≠ .dropped := by
  cases closer with
  | dropped =>
      exact h
  | _ =>
      exact Closer.noConfusion

end Closer

namespace TeardownTask

variable {σ : Type}

/-- What a teardown still has to do before it announces its outcome, which will
be `outcome` if it still runs. -/
def rest (outcome : CloseOutcome) : TeardownTask → List (CloseEvent σ)
  | .running => [.finish 0 outcome, .mark 0, .announce 0]
  | .finished _ => [.mark 0, .announce 0]
  | .marked _ => [.announce 0]
  | .announced _ => []

def next (outcome : CloseOutcome) : TeardownTask → TeardownTask
  | .running => .finished outcome
  | .finished told => .marked told
  | .marked told | .announced told => .announced told

theorem rest_next (outcome : CloseOutcome) (task : TeardownTask) :
    (task.next outcome).rest outcome =
      (task.rest outcome : List (CloseEvent σ)).tail := by
  cases task <;> rfl

end TeardownTask

namespace Closing

variable {σ : Type} {s : Closing σ}

/-- If each event either takes off the next of the remaining steps or is another
one and leaves them, then nothing remains once all of them have come in their
order. -/
theorem run_of_sublist {Has : Closing σ → List (CloseEvent σ) → Prop}
    {Allowed : CloseEvent σ → Prop}
    (hstep : ∀ s rest event, Has s rest → Allowed event →
      Has (s.step event) rest.tail ∨ rest.head? ≠ some event ∧
      Has (s.step event) rest)
    {events rest : List (CloseEvent σ)}
    (hallowed : ∀ event ∈ events, Allowed event) (hsub : rest.Sublist events)
    (h : Has s rest) : Has (s.run events) [] := by
  induction events generalizing s rest with
  | nil =>
      rwa [List.sublist_nil.mp hsub] at h
  | cons event events ih =>
      rcases List.forall_mem_cons.mp hallowed with ⟨hevent, hevents⟩
      rcases hstep s rest event h hevent with htail | ⟨hother, hsame⟩
      · apply ih hevents _ htail
        cases hsub with
        | cons _ hsub =>
            exact (List.tail_sublist rest).trans hsub
        | cons_cons _ hsub =>
            exact hsub
      · apply ih hevents _ hsame
        cases hsub with
        | cons _ hsub =>
            exact hsub
        | cons_cons _ _ =>
            exact absurd rfl hother

/-! # The teardown -/

theorem teardowns_markReady (s : Closing σ) :
    s.markReady.teardowns = s.teardowns := by
  rw [markReady]
  split <;> rfl

theorem Orderly.begin_of_teardown (h : s.Orderly) {task : TeardownTask}
    (hone : s.teardowns = [task]) : s.begin_ = s := by
  cases h with
  | unbegun hnone _ _ _ =>
      rw [hnone] at hone
      cases hone
  | begun task _ hstate _ _ _ =>
      exact begin_of_begun (hstate ▸ task.beginClose_state)

theorem eq_of_getElem? {task other : TeardownTask} {i : Nat}
    (hone : s.teardowns = [task]) (h : s.teardowns[i]? = some other) :
    i = 0 ∧ task = other := by
  rw [hone] at h
  simpa [List.getElem?_singleton] using h

theorem getElem?_of_one {task : TeardownTask} (hone : s.teardowns = [task]) :
    s.teardowns[0]? = some task := by
  rw [hone]
  rfl

theorem teardowns_setTeardown {task : TeardownTask}
    (hone : s.teardowns = [task]) (next : TeardownTask) :
    (s.setTeardown 0 next).teardowns = [next] := by
  rw [setTeardown, hone]
  rfl

theorem teardowns_step_of_next {task : TeardownTask} {outcome : CloseOutcome}
    {event : CloseEvent σ} (hone : s.teardowns = [task])
    (hnext : (task.rest outcome).head? = some event) :
    (s.step event).teardowns = [task.next outcome] := by
  have hfirst := getElem?_of_one hone
  cases task with
  | running =>
      cases hnext
      rw [step, if_pos hfirst]
      exact teardowns_setTeardown hone _
  | finished told =>
      cases hnext
      rw [step, hfirst]
      exact teardowns_setTeardown hone _
  | marked told =>
      cases hnext
      rw [step, hfirst]
      exact teardowns_setTeardown hone _
  | announced told =>
      cases hnext

theorem teardowns_step_of_ne (h : s.Orderly) {task : TeardownTask}
    {outcome : CloseOutcome} {event : CloseEvent σ}
    (hone : s.teardowns = [task])
    (hne : (task.rest outcome).head? ≠ some event) :
    (s.step event).teardowns = [task] ∨
      ∃ told, task = .running ∧
      (s.step event).teardowns = [.finished told] := by
  cases event with
  | call =>
      exact .inl hone
  | begin_ i =>
      rw [step, h.begin_of_teardown hone]
      split <;> exact .inl hone
  | wake i =>
      rw [step]
      split <;> exact .inl hone
  | read i =>
      rw [step]
      split <;> exact .inl hone
  | drop i =>
      rw [step]
      split <;> exact .inl hone
  | markReady =>
      exact .inl ((teardowns_markReady s).trans hone)
  | other change =>
      exact .inl hone
  | finish i told =>
      rw [step]
      split
      · next hrunning =>
          rcases eq_of_getElem? hone hrunning with ⟨rfl, htask⟩
          exact .inr ⟨told, htask, teardowns_setTeardown hone _⟩
      · exact .inl hone
  | mark i =>
      rw [step]
      split
      · next told hfinished =>
          rcases eq_of_getElem? hone hfinished with ⟨rfl, rfl⟩
          exact absurd rfl hne
      · exact .inl hone
  | announce i =>
      rw [step]
      split
      · next told hmarked =>
          rcases eq_of_getElem? hone hmarked with ⟨rfl, rfl⟩
          exact absurd rfl hne
      · exact .inl hone

structure TearsDown (outcome : CloseOutcome) (s : Closing σ)
    (rest : List (CloseEvent σ)) : Prop where
  orderly : s.Orderly
  remains : ∃ task, s.teardowns = [task] ∧ task.rest outcome = rest

theorem TearsDown.step {outcome : CloseOutcome} {rest : List (CloseEvent σ)}
    (h : s.TearsDown outcome rest) (event : CloseEvent σ) :
    (s.step event).TearsDown outcome rest.tail ∨
      rest.head? ≠ some event ∧ (s.step event).TearsDown outcome rest := by
  have horderly := h.orderly.step event
  rcases h.remains with ⟨task, hone, rfl⟩
  by_cases hnext : (task.rest outcome).head? = some event
  · exact .inl ⟨horderly, _, teardowns_step_of_next hone hnext,
      task.rest_next outcome⟩
  · rcases teardowns_step_of_ne h.orderly hone hnext with
      hsame | ⟨told, rfl, hfinished⟩
    · exact .inr ⟨hnext, horderly, task, hsame, rfl⟩
    · exact .inl ⟨horderly, .finished told, hfinished, rfl⟩

/-- A teardown that takes its remaining steps announces an outcome. -/
theorem Orderly.announces (h : s.Orderly) {task : TeardownTask}
    (hone : s.teardowns = [task]) {outcome : CloseOutcome}
    {events : List (CloseEvent σ)} (hsub : (task.rest outcome).Sublist events) :
    ∃ told, (s.run events).teardowns = [.announced told] := by
  have hstep (s : Closing σ) (rest : List (CloseEvent σ)) (event : CloseEvent σ)
      (h : s.TearsDown outcome rest) (_ : True) := h.step event
  have hrun := run_of_sublist hstep (fun _ _ => trivial) hsub
    ⟨h, task, hone, rfl⟩
  rcases hrun.remains with ⟨task, hone, hrest⟩
  cases task with
  | announced told =>
      exact ⟨told, hone⟩
  | _ =>
      cases hrest

/-! # The callers -/

theorem closers_begin (s : Closing σ) : s.begin_.closers = s.closers := by
  rw [begin_]
  split <;> rfl

theorem closers_markReady (s : Closing σ) :
    s.markReady.closers = s.closers := by
  rw [markReady]
  split <;> rfl

theorem Orderly.of_outcome (h : s.Orderly) {outcome : CloseOutcome}
    (houtcome : s.client.outcome = some outcome) :
    s.client.state = .closed ∧ s.teardowns = [.announced outcome] := by
  cases h with
  | unbegun _ _ hnone _ =>
      rw [hnone] at houtcome
      cases houtcome
  | begun task hone hstate _ heq _ =>
      obtain rfl := TeardownTask.eq_announced (heq.symm.trans houtcome)
      exact ⟨hstate, hone⟩

theorem Orderly.of_announced (h : s.Orderly) {outcome : CloseOutcome}
    (hannounced : s.teardowns = [.announced outcome]) :
    s.client.state = .closed ∧ s.client.outcome = some outcome := by
  cases h with
  | unbegun hnone _ _ _ =>
      rw [hnone] at hannounced
      cases hannounced
  | begun task hone hstate _ houtcome _ =>
      cases hone.symm.trans hannounced
      exact ⟨hstate, houtcome⟩

/-- An outcome is announced for good. -/
theorem Orderly.outcome_step (h : s.Orderly) {outcome : CloseOutcome}
    (houtcome : s.client.outcome = some outcome) (event : CloseEvent σ) :
    (s.step event).client.outcome = some outcome := by
  have hone := (h.of_outcome houtcome).2
  have hrest :
      (TeardownTask.rest outcome (.announced outcome)).head? ≠ some event :=
    (Option.some_ne_none event).symm
  rcases teardowns_step_of_ne h hone hrest with hsame | ⟨told, hrunning, -⟩
  · exact ((h.step event).of_announced hsame).2
  · cases hrunning

theorem getElem?_setCloser {i j : Nat} {closer old next : Closer}
    (hcloser : s.closers[i]? = some closer) (hold : s.closers[j]? = some old)
    (hne : j = i → old ≠ closer) :
    (s.setCloser j next).closers[i]? = some closer := by
  have hindex : j ≠ i := by
    rintro rfl
    exact hne rfl (Option.some.inj (hold.symm.trans hcloser))
  rw [setCloser, List.getElem?_set_ne hindex, hcloser]

theorem closers_step_of_next {i : Nat} {closer : Closer}
    {outcome : CloseOutcome} {event : CloseEvent σ}
    (hcloser : s.closers[i]? = some closer)
    (houtcome : s.client.outcome = some outcome)
    (hnext : (closer.rest i).head? = some event) :
    (s.step event).closers[i]? = some (closer.next outcome) := by
  have hlt : i < s.closers.length := (List.getElem?_eq_some_iff.mp hcloser).1
  cases closer with
  | subscribed =>
      cases hnext
      rw [step, if_pos hcloser, setCloser, closers_begin]
      exact List.getElem?_set_self hlt
  | waiting =>
      cases hnext
      have hsome : s.client.outcome.isSome = true := by
        rw [houtcome]
        rfl
      rw [step, if_pos ⟨hcloser, hsome⟩]
      exact List.getElem?_set_self hlt
  | woken =>
      cases hnext
      have htold : s.client.closeOutcome = outcome := by
        rw [Client.closeOutcome, houtcome]
        rfl
      rw [step, if_pos hcloser, htold]
      exact List.getElem?_set_self hlt
  | returned told =>
      cases hnext
  | dropped =>
      cases hnext

theorem closers_step_of_ne {i : Nat} {closer : Closer} {event : CloseEvent σ}
    (hcloser : s.closers[i]? = some closer) (hkept : event ≠ .drop i)
    (hne : (closer.rest i).head? ≠ some event) :
    (s.step event).closers[i]? = some closer := by
  cases event with
  | call =>
      exact (List.getElem?_append_left
        (List.getElem?_eq_some_iff.mp hcloser).1).trans hcloser
  | begin_ j =>
      rw [step]
      split
      · next hold =>
          rw [← closers_begin s] at hcloser hold
          apply getElem?_setCloser hcloser hold
          rintro rfl rfl
          exact hne rfl
      · exact hcloser
  | wake j =>
      rw [step]
      split
      · next hold =>
          apply getElem?_setCloser hcloser hold.1
          rintro rfl rfl
          exact hne rfl
      · exact hcloser
  | read j =>
      rw [step]
      split
      · next hold =>
          apply getElem?_setCloser hcloser hold
          rintro rfl rfl
          exact hne rfl
      · exact hcloser
  | drop j =>
      rw [step]
      split
      · next hold =>
          apply getElem?_setCloser hcloser hold
          rintro rfl
          exact absurd rfl hkept
      · exact hcloser
  | markReady =>
      rw [step, closers_markReady]
      exact hcloser
  | other change =>
      exact hcloser
  | finish j told =>
      rw [step]
      split <;> exact hcloser
  | mark j =>
      rw [step]
      split <;> exact hcloser
  | announce j =>
      rw [step]
      split <;> exact hcloser

/-- The outcome is announced, and a caller who has not been given up still has
some steps to take. -/
structure Closes (i : Nat) (outcome : CloseOutcome) (s : Closing σ)
    (rest : List (CloseEvent σ)) : Prop where
  orderly : s.Orderly
  announced : s.client.outcome = some outcome
  remains : ∃ closer, s.closers[i]? = some closer ∧ closer ≠ .dropped ∧
    closer.rest i = rest

theorem Closes.step {i : Nat} {outcome : CloseOutcome}
    {rest : List (CloseEvent σ)} (h : s.Closes i outcome rest)
    {event : CloseEvent σ} (hkept : event ≠ .drop i) :
    (s.step event).Closes i outcome rest.tail ∨
      rest.head? ≠ some event ∧ (s.step event).Closes i outcome rest := by
  have horderly := h.orderly.step event
  have hannounced := h.orderly.outcome_step h.announced event
  rcases h.remains with ⟨closer, hcloser, hnot, rfl⟩
  by_cases hnext : (closer.rest i).head? = some event
  · exact .inl ⟨horderly, hannounced, _,
      closers_step_of_next hcloser h.announced hnext,
      Closer.next_ne_dropped hnot, closer.rest_next i outcome⟩
  · exact .inr ⟨hnext, horderly, hannounced, closer,
      closers_step_of_ne hcloser hkept hnext, hnot, rfl⟩

/-- A caller who has got further than to subscribe finds a teardown, which says
what it was told. -/
theorem Orderly.exists_teardown (h : s.Orderly) {closer : Closer}
    (hcloser : closer ∈ s.closers) (hne : closer ≠ .subscribed) :
    ∃ task, s.teardowns = [task] ∧ s.client.outcome = task.outcome? ∧
    closer.Fits task.outcome? := by
  cases h with
  | unbegun _ _ _ hclosers =>
      exact absurd (hclosers closer hcloser) hne
  | begun task hone _ _ houtcome hclosers =>
      exact ⟨task, hone, houtcome, hclosers closer hcloser⟩

theorem Orderly.outcome_of_returned (h : s.Orderly) {outcome : CloseOutcome}
    (hreturned : .returned outcome ∈ s.closers) :
    s.client.outcome = some outcome := by
  rcases h.exists_teardown hreturned Closer.noConfusion with
    ⟨task, -, houtcome, hfits⟩
  exact houtcome.trans hfits

/-- Once an outcome is announced, a caller who takes its remaining steps returns
it. -/
theorem Orderly.returns (h : s.Orderly) {outcome : CloseOutcome}
    (houtcome : s.client.outcome = some outcome) {i : Nat} {closer : Closer}
    (hcloser : s.closers[i]? = some closer) (hnot : closer ≠ .dropped)
    {events : List (CloseEvent σ)} (hkept : .drop i ∉ events)
    (hsub : (closer.rest i).Sublist events) :
    (s.run events).closers[i]? = some (.returned outcome) := by
  have hstep (s : Closing σ) (rest : List (CloseEvent σ)) (event : CloseEvent σ)
      (h : s.Closes i outcome rest) (hkept : event ≠ .drop i) := h.step hkept
  have hevents : ∀ event ∈ events, event ≠ .drop i := by
    rintro event hevent rfl
    exact hkept hevent
  have hrun :=
    run_of_sublist hstep hevents hsub ⟨h, houtcome, closer, hcloser, hnot, rfl⟩
  rcases hrun.remains with ⟨closer, hcloser, hnot, hrest⟩
  cases closer with
  | returned told =>
      have htold :=
        hrun.orderly.outcome_of_returned (List.mem_of_getElem? hcloser)
      rw [hcloser, Option.some.inj (htold.symm.trans hrun.announced)]
  | dropped =>
      exact absurd rfl hnot
  | _ =>
      cases hrest

/-! # Every run -/

theorem Orderly.of_markReady (h : s.Orderly)
    (hready : (Client.markReady s.client).1.isOk) :
    s.readied = 0 ∧ s.teardowns = [] ∧
    ∀ closer ∈ s.closers, closer = .subscribed := by
  cases h with
  | unbegun hnone hstate _ hclosers =>
      rcases hstate with ⟨-, hreadied⟩ | ⟨hstate, -⟩
      · exact ⟨hreadied, hnone, hclosers⟩
      · rw [markReady_apply, hstate] at hready
        cases hready
  | begun task _ hstate _ _ _ =>
      rw [markReady_apply, hstate] at hready
      cases task <;> cases hready

theorem Orderly.teardowns_length_le (h : s.Orderly) :
    s.teardowns.length ≤ 1 := by
  cases h with
  | unbegun hnone _ _ _ =>
      rw [hnone]
      exact Nat.zero_le _
  | begun task hone _ _ _ _ =>
      rw [hone]
      exact Nat.le_refl _

/-- What holds at any time while a client is closed side by side. -/
structure ClosesOnce (s : Closing σ) : Prop where
  forward : ∀ events, s.client.state.rank ≤ (s.run events).client.state.rank
  once : s.teardowns.length ≤ 1
  begun : (∃ closer ∈ s.closers, closer ≠ .subscribed) → s.teardowns.length = 1
  /-- A teardown that takes its remaining steps announces an outcome. -/
  announces : ∀ task, s.teardowns = [task] → ∀ outcome events,
    (task.rest outcome).Sublist events →
    ∃ told, (s.run events).teardowns = [.announced told]
  announced : ∀ outcome, s.teardowns = [.announced outcome] →
    s.client.state = .closed ∧ s.client.outcome = some outcome
  /-- Nobody returns before the client is closed, nor with another outcome. -/
  told : ∀ outcome, .returned outcome ∈ s.closers →
    s.client.state = .closed ∧ s.client.outcome = some outcome ∧
      s.teardowns = [.announced outcome]
  /-- After the announcement, each caller who takes its remaining steps
  returns. -/
  returns : ∀ outcome, s.teardowns = [.announced outcome] → ∀ i closer,
    s.closers[i]? = some closer → closer ≠ .dropped →
    ∀ events, .drop i ∉ events →
      (closer.rest i).Sublist events →
      (s.run events).closers[i]? = some (.returned outcome)
  /-- So does one who comes after it. -/
  late : ∀ outcome, s.teardowns = [.announced outcome] → ∀ events,
    .drop s.closers.length ∉ events →
      (Closer.rest s.closers.length .subscribed).Sublist events →
        (s.run (.call :: events)).closers[s.closers.length]? =
          some (.returned outcome)
  readied : s.readied ≤ 1
  unbegun : (Client.markReady s.client).1.isOk →
    s.readied = 0 ∧ s.teardowns = [] ∧
    ∀ closer ∈ s.closers, closer = .subscribed

/-- However many callers close a client, and in whatever order they, the
handshake and the teardown take their steps: the state moves forward, there is
one teardown once anybody has begun the end and none before, nobody returns
before the client is closed, all return what that teardown came to, early or
late, and the client is marked as ready once at most and only before the end has
begun. -/
theorem closes_once (c : Client σ) (events : List (CloseEvent σ)) :
    ((start c).run events).ClosesOnce := by
  have h : ((start c).run events).Orderly := (orderly_start c).run events
  generalize (start c).run events = s at h
  constructor
  case forward =>
    exact rank_le_run s
  case once =>
    exact h.teardowns_length_le
  case begun =>
    rintro ⟨closer, hcloser, hne⟩
    rcases h.exists_teardown hcloser hne with ⟨task, hone, -⟩
    rw [hone]
    rfl
  case announces =>
    intro task hone outcome events hsub
    exact h.announces hone hsub
  case announced =>
    intro outcome hannounced
    exact h.of_announced hannounced
  case told =>
    intro outcome hreturned
    have houtcome := h.outcome_of_returned hreturned
    rcases h.of_outcome houtcome with ⟨hclosed, hone⟩
    exact ⟨hclosed, houtcome, hone⟩
  case returns =>
    intro outcome hannounced i closer hcloser hnot events hkept hsub
    exact h.returns (h.of_announced hannounced).2 hcloser hnot hkept hsub
  case late =>
    intro outcome hannounced events hkept hsub
    have hcalled :
        (s.step .call).closers[s.closers.length]? = some .subscribed :=
      List.getElem?_concat_length
    have houtcome : (s.step .call).client.outcome = some outcome :=
      (h.of_announced hannounced).2
    exact (h.step .call).returns houtcome hcalled Closer.noConfusion hkept hsub
  case readied =>
    exact h.readied_le
  case unbegun =>
    exact h.of_markReady

/-- Two callers come before the end and one after it. The first of them has
begun the end, and the second has only subscribed when the outcome is
announced. -/
def threeCallers : Closing Unit :=
  (start Client.twoLines).run [.call, .call, .begin_ 0, .markReady,
    .finish 0 .killed, .mark 0, .announce 0, .call]

/-- The steps that the three still have to take, those of one between those of
another. -/
def lastSteps : List (CloseEvent Unit) :=
  [.begin_ 2, .wake 0, .begin_ 1, .wake 2, .read 2, .wake 1, .read 0, .read 1]

/-- Early or late, all three return the outcome of the one teardown. -/
theorem three_callers_return :
    threeCallers.closers = [.waiting, .subscribed, .subscribed] ∧
    threeCallers.teardowns = [.announced .killed] ∧
    ∀ i < 3, (threeCallers.run lastSteps).closers[i]? =
      some (.returned .killed) := by
  have hclosers :
      threeCallers.closers = [.waiting, .subscribed, .subscribed] := rfl
  have hannounced : threeCallers.teardowns = [.announced .killed] := rfl
  have honce : threeCallers.ClosesOnce := closes_once Client.twoLines _
  have hreturns {i : Nat} {closer : Closer}
      (hcloser : threeCallers.closers[i]? = some closer)
      (hnot : closer ≠ .dropped) (hsub : (closer.rest i).Sublist lastSteps) :
      (threeCallers.run lastSteps).closers[i]? = some (.returned .killed) :=
    honce.returns .killed hannounced i closer hcloser hnot lastSteps
      (by simp [lastSteps]) hsub
  rw [hclosers] at hreturns
  refine ⟨hclosers, hannounced, ?_⟩
  intro i hi
  match i, hi with
  | 0, _ =>
      exact hreturns rfl Closer.noConfusion (by simp [Closer.rest, lastSteps])
  | 1, _ =>
      exact hreturns rfl Closer.noConfusion
        (by simp [Closer.rest, lastSteps, List.sublist_cons_iff])
  | 2, _ =>
      exact hreturns rfl Closer.noConfusion (by simp [Closer.rest, lastSteps])

end Closing
end CodeIntel
