import CodeIntel.Client.Handshake
import CodeIntel.Client.Teardown
import CodeIntel.Proofs.Client.Waiting

/-!
# Closing a client side by side

Any number of callers close one client. Each of them first makes sure that it
will learn of the outcome, then begins the end of the client unless somebody
has, and waits. Whoever begins the end starts a task that tears the client down,
marks it as closed and only then announces the outcome. The steps of all of them
come in any order, the handshake may mark the client as ready between any two of
them, and everything else may happen to the client meanwhile.

The invariant is `Orderly`: there is no teardown or one, and how far it has come
determines the state of the client, the outcome it announces and what a caller
can have been told.
-/

namespace CodeIntel

/-! # Callers and teardowns -/

/-- How far a call that closes the client has come. -/
inductive Closer where
  /-- It will learn of the outcome, and has not touched the client yet. -/
  | subscribed
  | waiting
  /-- It has learnt that there is an outcome, and reads it next. -/
  | woken
  | returned (outcome : CloseOutcome)
  /-- It was given up while it waited. -/
  | dropped
deriving DecidableEq

/-- How far a task that tears the client down has come. -/
inductive TeardownTask where
  | running
  | finished (outcome : CloseOutcome)
  /-- The client is marked as closed. -/
  | marked (outcome : CloseOutcome)
  | announced (outcome : CloseOutcome)
deriving DecidableEq

structure Closing (σ : Type) where
  client : Client σ
  closers : List Closer := []
  teardowns : List TeardownTask := []
  /-- How often the client was marked as ready. -/
  readied : Nat := 0

/-- What happens next. Callers and teardowns are counted from zero. -/
inductive CloseEvent (σ : Type) where
  /-- Somebody closes the client. -/
  | call
  | begin_ (i : Nat)
  | wake (i : Nat)
  | read (i : Nat)
  | drop (i : Nat)
  | markReady
  /-- The teardown goes on, or somebody uses the client for something else. -/
  | other (change : Client σ → Client σ)
  | finish (i : Nat) (outcome : CloseOutcome)
  | mark (i : Nat)
  | announce (i : Nat)

namespace Closing

variable {σ : Type}

def start (c : Client σ) : Closing σ :=
  { client := { c with state := .starting, outcome := none } }

def setCloser (s : Closing σ) (i : Nat) (closer : Closer) : Closing σ :=
  { s with closers := s.closers.set i closer }

def setTeardown (s : Closing σ) (i : Nat) (task : TeardownTask) : Closing σ :=
  { s with teardowns := s.teardowns.set i task }

/-- Begins the end of the client, and starts a teardown if it is the first to do
so. -/
def begin_ (s : Closing σ) : Closing σ :=
  match s.client.beginClose? with
  | some c => { s with client := c, teardowns := s.teardowns ++ [.running] }
  | none => s

def markReady (s : Closing σ) : Closing σ :=
  match Client.markReady s.client with
  | (.ok (), c) => { s with client := c, readied := s.readied + 1 }
  | (.error _, c) => { s with client := c }

def step (s : Closing σ) : CloseEvent σ → Closing σ
  | .call => { s with closers := s.closers ++ [.subscribed] }
  | .begin_ i =>
    if s.closers[i]? = some .subscribed then s.begin_.setCloser i .waiting
    else s
  | .wake i =>
    if s.closers[i]? = some .waiting ∧ s.client.outcome.isSome then
      s.setCloser i .woken else s
  | .read i =>
    if s.closers[i]? = some .woken then
      s.setCloser i (.returned s.client.closeOutcome) else s
  | .drop i =>
    if s.closers[i]? = some .waiting then s.setCloser i .dropped else s
  | .markReady => s.markReady
  | .other change =>
    { s with
      client :=
        { change s.client with
          state := s.client.state, outcome := s.client.outcome } }
  | .finish i outcome =>
    if s.teardowns[i]? = some .running then s.setTeardown i (.finished outcome)
    else s
  | .mark i =>
    match s.teardowns[i]? with
    | some (.finished outcome) =>
      { s.setTeardown i (.marked outcome) with client := s.client.markClosed }
    | _ => s
  | .announce i =>
    match s.teardowns[i]? with
    | some (.marked outcome) =>
      { s.setTeardown i (.announced outcome) with
        client := s.client.announce outcome }
    | _ => s

def run (s : Closing σ) (events : List (CloseEvent σ)) : Closing σ :=
  events.foldl step s

end Closing

/-! # The invariant -/

namespace TeardownTask

def state : TeardownTask → LifecycleState
  | .running | .finished _ => .shuttingDown
  | .marked _ | .announced _ => .closed

def outcome? : TeardownTask → Option CloseOutcome
  | .announced outcome => some outcome
  | _ => none

theorem eq_announced {task : TeardownTask} {outcome : CloseOutcome}
    (h : task.outcome? = some outcome) : task = .announced outcome := by
  cases task with
  | announced told =>
      rw [Option.some.inj h]
  | running =>
      cases h
  | finished told =>
      cases h
  | marked told =>
      cases h

theorem beginClose_state (task : TeardownTask) :
    task.state.beginClose = none := by
  cases task <;> rfl

end TeardownTask

/-- What a caller can have been told, if the client announces an outcome or
none. -/
def Closer.Fits (announced : Option CloseOutcome) : Closer → Prop
  | .woken => announced.isSome
  | .returned outcome => announced = some outcome
  | _ => True

inductive Closing.Orderly {σ : Type} (s : Closing σ) : Prop where
  /-- Nobody has begun the end of the client. -/
  | unbegun (hnone : s.teardowns = [])
    (hstate : s.client.state = .starting ∧ s.readied = 0 ∨
      s.client.state = .ready ∧ s.readied = 1)
    (houtcome : s.client.outcome = none)
    (hclosers : ∀ c ∈ s.closers, c = .subscribed)
  | begun (task : TeardownTask) (hone : s.teardowns = [task])
    (hstate : s.client.state = task.state) (hreadied : s.readied ≤ 1)
    (houtcome : s.client.outcome = task.outcome?)
    (hclosers : ∀ c ∈ s.closers, c.Fits task.outcome?)

namespace Closing

variable {σ : Type} {s : Closing σ}

theorem begin_of_begun (h : s.client.state.beginClose = none) :
    s.begin_ = s := by
  rw [begin_, Client.beginClose?, h]
  rfl

theorem orderly_start (c : Client σ) : (start c).Orderly :=
  .unbegun rfl (.inl ⟨rfl, rfl⟩) rfl fun _ h => nomatch h

theorem Orderly.readied_le (h : s.Orderly) : s.readied ≤ 1 := by
  cases h with
  | unbegun _ hstate _ _ =>
      omega
  | begun _ _ _ hreadied _ _ =>
      exact hreadied

/-! # Steps of a caller -/

theorem Orderly.setCloser (h : s.Orderly) {i : Nat} {old closer : Closer}
    (hold : s.closers[i]? = some old) (hbegun : old ≠ .subscribed)
    (hcloser : closer.Fits s.client.outcome) :
    (s.setCloser i closer).Orderly := by
  cases h with
  | unbegun _ _ _ hclosers =>
      exact absurd (hclosers old (List.mem_of_getElem? hold)) hbegun
  | begun task hone hstate hreadied houtcome hclosers =>
      refine .begun task hone hstate hreadied houtcome ?_
      intro c hc
      rcases List.mem_or_eq_of_mem_set hc with hc | rfl
      · exact hclosers c hc
      · rwa [← houtcome]

theorem Orderly.call (h : s.Orderly) : (s.step .call).Orderly := by
  have hmem {c : Closer} (hc : c ∈ s.closers ++ [.subscribed]) :
      c ∈ s.closers ∨ c = .subscribed := by
    simpa using hc
  cases h with
  | unbegun hnone hstate houtcome hclosers =>
      exact .unbegun hnone hstate houtcome fun c hc =>
        (hmem hc).elim (hclosers c) id
  | begun task hone hstate hreadied houtcome hclosers =>
      refine .begun task hone hstate hreadied houtcome ?_
      intro c hc
      rcases hmem hc with hc | rfl
      · exact hclosers c hc
      · exact trivial

theorem Orderly.begin_ (h : s.Orderly) (i : Nat) :
    (s.step (.begin_ i)).Orderly := by
  rw [step]
  split
  · cases h with
    | unbegun hnone hstate houtcome hclosers =>
        have hfirst : s.begin_ = { s with
            client := { s.client with state := .shuttingDown }
            teardowns := [.running] } := by
          rcases hstate with ⟨hstate, -⟩ | ⟨hstate, -⟩ <;>
            simp only [Closing.begin_, Client.beginClose?, hstate,
              LifecycleState.beginClose, Option.map_some, hnone,
              List.nil_append]
        rw [hfirst]
        refine .begun .running rfl rfl ?_ houtcome ?_
        · show s.readied ≤ 1
          omega
        · intro c hc
          rcases List.mem_or_eq_of_mem_set hc with hc | rfl
          · rw [hclosers c hc]
            exact trivial
          · exact trivial
    | begun task hone hstate hreadied houtcome hclosers =>
        rw [begin_of_begun (hstate ▸ task.beginClose_state)]
        refine .begun task hone hstate hreadied houtcome ?_
        intro c hc
        rcases List.mem_or_eq_of_mem_set hc with hc | rfl
        · exact hclosers c hc
        · exact trivial
  · exact h

theorem Orderly.read (h : s.Orderly) (i : Nat) :
    (s.step (.read i)).Orderly := by
  rw [step]
  split
  · next hwoken =>
      refine h.setCloser hwoken (by decide) ?_
      cases h with
      | unbegun _ _ _ hclosers =>
          exact absurd (hclosers _ (List.mem_of_getElem? hwoken)) (by decide)
      | begun task _ _ _ houtcome hclosers =>
          have hsome := hclosers _ (List.mem_of_getElem? hwoken)
          rw [Closer.Fits, ← houtcome] at hsome
          obtain ⟨outcome, heq⟩ := Option.isSome_iff_exists.mp hsome
          rw [Client.closeOutcome, heq]
          rfl
  · exact h

/-! # Steps of a teardown -/

theorem Orderly.setTeardown (h : s.Orderly) {i : Nat} {old task : TeardownTask}
    {c : Client σ} (hold : s.teardowns[i]? = some old)
    (hnone : old.outcome? = none)
    (hstate : old.state = s.client.state → c.state = task.state)
    (houtcome : s.client.outcome = none → c.outcome = task.outcome?) :
    Orderly { s.setTeardown i task with client := c } := by
  cases h with
  | unbegun hempty _ _ _ =>
      rw [hempty] at hold
      exact nomatch hold
  | begun task' hone hstate' hreadied houtcome' hclosers =>
      rw [hone] at hold
      obtain ⟨rfl, rfl⟩ : i = 0 ∧ task' = old := by
        simpa [List.getElem?_singleton] using hold
      refine .begun task ?_ (hstate hstate'.symm) hreadied
        (houtcome (houtcome'.trans hnone)) ?_
      · show s.teardowns.set 0 task = [task]
        rw [hone]
        rfl
      · -- nobody was told anything before the outcome is announced
        intro closer hcloser
        have hfits := hclosers closer hcloser
        rw [hnone] at hfits
        cases closer with
        | woken =>
            exact nomatch hfits
        | returned outcome =>
            exact nomatch hfits
        | subscribed =>
            exact trivial
        | waiting =>
            exact trivial
        | dropped =>
            exact trivial

/-! # Every run -/

theorem markReady_apply (c : Client σ) :
    Client.markReady c = match c.state.markReady with
      | some state => (.ok (), { c with state := state })
      | none =>
        (.error (.initializationFailed
          "client was closed during initialization"), c) := by
  show (match c.state.markReady with
    | some state => modifyThe (Client σ) fun c => { c with state := state }
    | none =>
      throw (.initializationFailed "client was closed during initialization") :
      ClientM σ Unit) c = _
  cases c.state.markReady <;> rfl

theorem markReady_of_starting (h : s.client.state = .starting) :
    s.markReady = { s with
      client :=
  { s.client with state := .ready }, readied := s.readied + 1 } := by
  simp only [markReady, markReady_apply, h, LifecycleState.markReady]

theorem markReady_of_ne (h : s.client.state ≠ .starting) : s.markReady = s := by
  cases hstate : s.client.state with
  | starting =>
      exact absurd hstate h
  | ready =>
      simp only [markReady, markReady_apply, hstate, LifecycleState.markReady]
  | shuttingDown =>
      simp only [markReady, markReady_apply, hstate, LifecycleState.markReady]
  | closed =>
      simp only [markReady, markReady_apply, hstate, LifecycleState.markReady]

theorem Orderly.markReady (h : s.Orderly) : s.markReady.Orderly := by
  by_cases hstarting : s.client.state = .starting
  · rw [markReady_of_starting hstarting]
    cases h with
    | unbegun hnone hstate houtcome hclosers =>
        refine .unbegun hnone (.inr ⟨rfl, ?_⟩) houtcome hclosers
        rcases hstate with ⟨-, hreadied⟩ | ⟨hready, -⟩
        · exact congrArg (· + 1) hreadied
        · rw [hready] at hstarting
          exact nomatch hstarting
    | begun task _ hstate _ _ _ =>
        rw [hstate] at hstarting
        cases task <;> exact nomatch hstarting
  · rwa [markReady_of_ne hstarting]

theorem Orderly.step (h : s.Orderly) (event : CloseEvent σ) :
    (s.step event).Orderly := by
  cases event with
  | call =>
      exact h.call
  | begin_ i =>
      exact h.begin_ i
  | wake i =>
      rw [Closing.step]
      split
      · next hwaiting =>
          exact h.setCloser hwaiting.1 (by decide) hwaiting.2
      · exact h
  | read i =>
      exact h.read i
  | drop i =>
      rw [Closing.step]
      split
      · next hwaiting =>
          exact h.setCloser hwaiting (by decide) trivial
      · exact h
  | markReady =>
      exact h.markReady
  | other change =>
      cases h with
      | unbegun hnone hstate houtcome hclosers =>
          exact .unbegun hnone hstate houtcome hclosers
      | begun task hone hstate hreadied houtcome hclosers =>
          exact .begun task hone hstate hreadied houtcome hclosers
  | finish i outcome =>
      rw [Closing.step]
      split
      · next hrunning =>
          exact h.setTeardown (c := s.client) hrunning rfl Eq.symm id
      · exact h
  | mark i =>
      rw [Closing.step]
      split
      · next outcome hfinished =>
          exact h.setTeardown hfinished rfl (fun _ => rfl) id
      · exact h
  | announce i =>
      rw [Closing.step]
      split
      · next outcome hmarked =>
          exact h.setTeardown hmarked rfl Eq.symm fun _ => rfl
      · exact h

theorem Orderly.run (h : s.Orderly) (events : List (CloseEvent σ)) :
    (s.run events).Orderly := by
  induction events generalizing s with
  | nil =>
      exact h
  | cons event rest ih =>
      exact ih (h.step event)

end Closing

/-! # The state moves forward -/

def LifecycleState.rank : LifecycleState → Nat
  | .starting => 0
  | .ready => 1
  | .shuttingDown => 2
  | .closed => 3

namespace Closing

variable {σ : Type} {s : Closing σ}

theorem rank_le_begin (s : Closing σ) :
    s.client.state.rank ≤ s.begin_.client.state.rank := by
  cases hstate : s.client.state <;>
    simp only [begin_, Client.beginClose?, hstate, LifecycleState.beginClose,
      Option.map_some, Option.map_none] <;> decide

theorem rank_le_step (s : Closing σ) (event : CloseEvent σ) :
    s.client.state.rank ≤ (s.step event).client.state.rank := by
  cases event with
  | call =>
      exact Nat.le_refl _
  | begin_ i =>
      rw [step]
      split
      · exact rank_le_begin s
      · exact Nat.le_refl _
  | wake i =>
      rw [step]
      split <;> exact Nat.le_refl _
  | read i =>
      rw [step]
      split <;> exact Nat.le_refl _
  | drop i =>
      rw [step]
      split <;> exact Nat.le_refl _
  | markReady =>
      rw [step]
      by_cases hstarting : s.client.state = .starting
      · rw [markReady_of_starting hstarting, hstarting]
        exact Nat.zero_le _
      · have hsame := congrArg (·.client.state.rank) (markReady_of_ne hstarting)
        exact Nat.le_of_eq hsame.symm
  | other change =>
      exact Nat.le_refl _
  | finish i outcome =>
      rw [step]
      split <;> exact Nat.le_refl _
  | mark i =>
      rw [step]
      split
      · show s.client.state.rank ≤ LifecycleState.rank .closed
        cases s.client.state <;> decide
      · exact Nat.le_refl _
  | announce i =>
      rw [step]
      split <;> exact Nat.le_refl _

theorem rank_le_run (s : Closing σ) (events : List (CloseEvent σ)) :
    s.client.state.rank ≤ (s.run events).client.state.rank := by
  induction events generalizing s with
  | nil =>
      exact Nat.le_refl _
  | cons event rest ih =>
      exact Nat.le_trans (rank_le_step s event) (ih (s.step event))

end Closing

/-! # A single caller -/

namespace Client

variable {σ : Type}

/-- A change that neither begins nor ends the end of a client. -/
def SameStage (c c' : Client σ) : Prop :=
  c'.state = c.state ∧ c'.outcome = c.outcome

theorem SameStage.trans {a b c : Client σ} (hab : SameStage a b)
    (hbc : SameStage b c) :
    SameStage a c :=
  ⟨hbc.1.trans hab.1, hbc.2.trans hab.2⟩

theorem permits_sameStage : Permits (SameStage (σ := σ)) := by
  constructor
  · exact SameStage.trans
  · intro c c' _ _ _ hstate houtcome
    exact ⟨hstate, houtcome⟩
  · intro frame c
    exact ⟨rfl, rfl⟩
  · intro c
    exact ⟨rfl, rfl⟩

theorem sameStage_takeReply (id limit : Nat) (c : Client σ) :
    SameStage c (c.takeReply id limit).2 :=
  ⟨rfl, rfl⟩

theorem sameStage_askShutdown (deadline : Nat) (c : Client σ) :
    SameStage c (c.askShutdown deadline) := by
  unfold askShutdown callUntil
  split
  · exact ⟨rfl, rfl⟩
  · next id connection heq =>
      have hstarted : SameStage c (c.onConnection fun _ => connection) :=
        ⟨rfl, rfl⟩
      exact (hstarted.trans (permits_sameStage.waitUntil _ _ _)).trans
        (sameStage_takeReply id _ _)

theorem sameStage_awaitExit (deadline : Nat) (c : Client σ) :
    SameStage c (c.awaitExit deadline) := by
  have hnotified : SameStage c
      (c.onConnection fun connection => (connection.notify "exit" .null).2) :=
      ⟨rfl, rfl⟩
  unfold awaitExit
  exact hnotified.trans (permits_sameStage.waitUntil _ _ _)

theorem sameStage_teardown (c : Client σ) : SameStage c c.teardown.2 := by
  have hgraceful (deadline : Nat) : SameStage c (c.endGracefully deadline) := by
    have hclosed : SameStage c c.closeDocuments := ⟨rfl, rfl⟩
    have hasked :=
      hclosed.trans (sameStage_askShutdown deadline c.closeDocuments)
    show SameStage c (if (c.closeDocuments.askShutdown deadline).clock <
      deadline then
      (c.closeDocuments.askShutdown deadline).awaitExit deadline
      else c.closeDocuments.askShutdown deadline)
    split
    · exact hasked.trans (sameStage_awaitExit deadline _)
    · exact hasked
  have hreaped (c : Client σ) : SameStage c c.reap.2 := by
    unfold reap
    split <;> exact ⟨rfl, rfl⟩
  have hended :=
    (hgraceful (c.clock + c.config.shutdownGraceMs)).trans (hreaped _)
  exact hended.trans ⟨rfl, rfl⟩

/-- The first to close a client takes the steps of a single caller and its
teardown. -/
theorem close_is_run {c began : Client σ} (hbegin : c.beginClose? = some began)
    (readied : Nat) :
    Closing.run ⟨c, [], [], readied⟩ [.call, .begin_ 0, .other fun c =>
      c.teardown.2, .finish 0 began.teardown.1, .mark 0, .announce 0, .wake 0,
      .read 0] = ⟨c.close.2, [.returned c.close.1], [.announced c.close.1],
      readied⟩ := by
  have hclose :
      c.close = (began.teardown.1,
        (began.teardown.2.markClosed).announce began.teardown.1) := by
    rw [close, hbegin]
    rfl
  have hsame :
      { began.teardown.2 with state := began.state, outcome := began.outcome } =
      began.teardown.2 := by
    rw [← (sameStage_teardown began).1, ← (sameStage_teardown began).2]
  rw [hclose]
  simp only [Closing.run, List.foldl_cons, List.foldl_nil, Closing.step,
    Closing.begin_, Closing.setCloser, Closing.setTeardown, List.nil_append,
    List.getElem?_cons_zero, if_true, hbegin, List.set_cons_zero, hsame]
  rfl

end Client
end CodeIntel
