import CodeIntel.Proofs.Connection.Traffic

/-!
# What holds between the steps of calls and closers

The invariant `Steady` is about slots: a call keeps the slot it has entered, or
it has a reply, or a closer is about to fail it. A call that has found the
connection open after it entered its slot did so before the slots were drained.
-/

namespace CodeIntel

open Connection (number)

namespace Traffic

/-! # Stages -/

def stage? (s : Traffic) (i : Nat) : Option CallStage :=
  (s.calls[i]?).map CallTask.stage

def number? (s : Traffic) (i : Nat) : Option Nat :=
  (s.stage? i).bind CallStage.number?

def slot? (s : Traffic) (i : Nat) : Option Nat :=
  (s.stage? i).bind CallStage.slot?

def sure? (s : Traffic) (i : Nat) : Option Nat :=
  (s.stage? i).bind CallStage.sure?

theorem number?_of_slot? {s : Traffic} {i call : Nat}
    (h : s.slot? i = some call) :
    s.number? i = some call := by
  rw [slot?, Option.bind_eq_some_iff] at h
  obtain ⟨stage, hstage, hslot⟩ := h
  rw [number?, hstage, Option.bind_some, CallStage.number?_of_slot? hslot]

theorem slot?_of_sure? {s : Traffic} {i call : Nat}
    (h : s.sure? i = some call) :
    s.slot? i = some call := by
  rw [sure?, Option.bind_eq_some_iff] at h
  obtain ⟨stage, hstage, hsure⟩ := h
  rw [slot?, hstage, Option.bind_some, CallStage.slot?_of_sure? hsure]

theorem stage?_move {s : Traffic} {i : Nat} {old : CallStage}
    (hold : s.stage? i = some old) (c : Connection) (stage : CallStage)
    (k : Nat) :
    (s.move i c stage).stage? k = if k = i then some stage else s.stage? k := by
  unfold stage? move at *
  rw [List.getElem?_modify]
  by_cases h : k = i
  · subst h
    rw [Option.map_eq_some_iff] at hold
    obtain ⟨task, htask, -⟩ := hold
    simp [htask]
  · have hne : i ≠ k := Ne.symm h
    cases s.calls[k]? <;> simp [h, hne]

/-! # Closers -/

/-- Whether a closer is about to fail a call. -/
def Lost (s : Traffic) (call : Nat) : Prop :=
  ∃ (j : Nat) (rest : List Nat), s.closers[j]? = some (.failing rest) ∧
    call ∈ rest

def Drained (s : Traffic) : Prop :=
  ∃ (j : Nat) (stage : CloseStage), s.closers[j]? = some stage ∧
    stage.hasDrained = true

/-- One closer at most is the first, and none as long as the connection is
open. -/
structure OneFirst (closed : Bool) (closers : List CloseStage) : Prop where
  unique : ∀ (j k : Nat) (a b : CloseStage), closers[j]? = some a →
    closers[k]? = some b → a.isFirst = true → b.isFirst = true → j = k
  closed : ∀ (j : Nat) (a : CloseStage), closers[j]? = some a →
    a.isFirst = true → closed = true

/-! # The invariant -/

/-- What holds between two steps of calls. -/
structure Steady (s : Traffic) : Prop where
  counted : ∀ i call, s.number? i = some call → call < s.connection.nextCall
  apart : ∀ i k call, s.number? i = some call → s.number? k = some call → i = k
  served : ∀ i call, s.slot? i = some call → s.connection.Serves call ∨
    s.Lost call
  drained : s.Drained → ∀ i call, s.sure? i = some call →
    call ∉ s.connection.pending
  owned : ∀ call ∈ s.connection.pending, ∃ i, s.slot? i = some call

/-- A step after which each number and each slot that is left belongs to the
call it belonged to. -/
theorem Steady.of_fewer {s s' : Traffic} (h : s.Steady)
    (hnext : s.connection.nextCall ≤ s'.connection.nextCall)
    (hnumber : ∀ i call, s'.number? i = some call → s.number? i = some call)
    (hslot : ∀ i call, s'.slot? i = some call → s.slot? i = some call)
    (hpending : ∀ call ∈ s'.connection.pending, call ∈ s.connection.pending)
    (hkept : ∀ i call, s.slot? i = some call → call ∈ s'.connection.pending →
      s'.slot? i = some call)
    (hserved : ∀ i call, s'.slot? i = some call → s.connection.Serves call ∨
      s.Lost call → s'.connection.Serves call ∨ s'.Lost call)
    (hdrained : s'.Drained → ∀ i call, s'.sure? i = some call →
      call ∈ s'.connection.pending → s.Drained ∧ s.sure? i = some call) :
    s'.Steady := by
  constructor
  · intro i call hi
    exact Nat.lt_of_lt_of_le (h.counted i call (hnumber i call hi)) hnext
  · intro i k call hi hk
    exact h.apart i k call (hnumber i call hi) (hnumber k call hk)
  · intro i call hi
    exact hserved i call hi (h.served i call (hslot i call hi))
  · intro hdrain i call hi hmem
    obtain ⟨hbefore, hsure⟩ := hdrained hdrain i call hi hmem
    exact h.drained hbefore i call hsure (hpending call hmem)
  · intro call hmem
    obtain ⟨i, hi⟩ := h.owned call (hpending call hmem)
    exact ⟨i, hkept i call hi hmem⟩

/-! ## Steps of a call -/

section Move

variable {s s' : Traffic} {i : Nat} {a b : CallStage}

/-- What a stage tells of a call is told by its new stage if it has moved, and
by its old one if not. -/
theorem cases_of_moved
    (hstage : ∀ k, s'.stage? k = if k = i then some b else s.stage? k)
    {told : CallStage → Option Nat} {k call : Nat}
    (hk : (s'.stage? k).bind told = some call) :
    (k = i ∧ told b = some call) ∨
    (k ≠ i ∧ (s.stage? k).bind told = some call) := by
  rw [hstage] at hk
  by_cases hki : k = i
  · rw [if_pos hki] at hk
    exact Or.inl ⟨hki, hk⟩
  · rw [if_neg hki] at hk
    exact Or.inr ⟨hki, hk⟩

theorem slot?_of_moved
    (hstage : ∀ k, s'.stage? k = if k = i then some b else s.stage? k)
    (k : Nat) : s'.slot? k = if k = i then b.slot? else s.slot? k := by
  rw [slot?, hstage]
  split <;> rfl

theorem number?_of_stage? (hold : s.stage? i = some a) :
    s.number? i = a.number? := by
  rw [number?, hold, Option.bind_some]

theorem slot?_of_stage? (hold : s.stage? i = some a) : s.slot? i = a.slot? := by
  rw [slot?, hold, Option.bind_some]

theorem sure?_of_stage? (hold : s.stage? i = some a) : s.sure? i = a.sure? := by
  rw [sure?, hold, Option.bind_some]

theorem Steady.of_move (h : s.Steady) (hold : s.stage? i = some a)
    (hstage : ∀ k, s'.stage? k = if k = i then some b else s.stage? k)
    (hnext : s'.connection.nextCall = s.connection.nextCall)
    (hnumber : ∀ call, b.number? = some call → a.number? = some call)
    (hslot : ∀ call, b.slot? = some call → a.slot? = some call)
    (hsure : ∀ call, b.sure? = some call → a.sure? = some call ∨ ¬ s.Drained)
    (hpending : ∀ call ∈ s'.connection.pending, call ∈ s.connection.pending ∧
      (a.slot? = some call → b.slot? = some call))
    (hserved : ∀ k call, s'.slot? k = some call → s.connection.Serves call ∨
      s.Lost call → s'.connection.Serves call ∨ s'.Lost call)
    (hdrained : s'.Drained → s.Drained) : s'.Steady := by
  apply h.of_fewer
  · exact Nat.le_of_eq hnext.symm
  · intro k call hk
    rcases cases_of_moved hstage hk with ⟨rfl, hb⟩ | ⟨-, hk⟩
    · rw [number?_of_stage? hold]
      exact hnumber call hb
    · exact hk
  · intro k call hk
    rcases cases_of_moved hstage hk with ⟨rfl, hb⟩ | ⟨-, hk⟩
    · rw [slot?_of_stage? hold]
      exact hslot call hb
    · exact hk
  · intro call hmem
    exact (hpending call hmem).1
  · intro k call hk hmem
    rw [slot?_of_moved hstage]
    by_cases hki : k = i
    · rw [hki, slot?_of_stage? hold] at hk
      rw [if_pos hki]
      exact (hpending call hmem).2 hk
    · rwa [if_neg hki]
  · exact hserved
  · intro hdrain k call hk _
    refine ⟨hdrained hdrain, ?_⟩
    rcases cases_of_moved hstage hk with ⟨rfl, hb⟩ | ⟨-, hk⟩
    · rw [sure?_of_stage? hold]
      rcases hsure call hb with hbefore | hnot
      · exact hbefore
      · exact absurd (hdrained hdrain) hnot
    · exact hk

theorem Steady.of_quiet (h : s.Steady) (hold : s.stage? i = some a)
    (hstage : ∀ k, s'.stage? k = if k = i then some b else s.stage? k)
    (hnext : s'.connection.nextCall = s.connection.nextCall)
    (hpending : s'.connection.pending = s.connection.pending)
    (hreplies : s'.connection.replies = s.connection.replies)
    (hnumber : ∀ call, b.number? = some call → a.number? = some call)
    (hslot : b.slot? = a.slot?)
    (hsure : ∀ call, b.sure? = some call → a.sure? = some call ∨ ¬ s.Drained)
    (hlost : ∀ call, s.Lost call → s'.Lost call)
    (hdrained : s'.Drained → s.Drained) : s'.Steady := by
  refine h.of_move hold hstage hnext hnumber ?_ hsure ?_ ?_ hdrained
  · intro call hcall
    rwa [hslot] at hcall
  · intro call hmem
    rw [hpending] at hmem
    refine ⟨hmem, fun hcall => ?_⟩
    rwa [hslot]
  · intro k call _ hserved
    rcases hserved with hserves | hbefore
    · refine Or.inl ?_
      unfold Connection.Serves Connection.reply? at hserves ⊢
      rwa [hpending, hreplies]
    · exact Or.inr (hlost call hbefore)

theorem Steady.leave (h : s.Steady) {call : Nat} (hold : s.stage? i = some a)
    (hslot : a.slot? = some call) (hb : b.number? = none) :
    (s.leave i call b).Steady := by
  have hnone (other : Nat) : b.number? ≠ some other := by
    rw [hb]
    exact fun heq => nomatch heq
  have hown : s.slot? i = some call := by
    rw [slot?_of_stage? hold, hslot]
  have hstage :
      ∀ k, (s.leave i call b).stage? k = if k = i then some b else s.stage? k :=
    stage?_move hold _ b
  refine h.of_move hold hstage (Connection.release_nextCall _ _) ?_ ?_
    ?_ ?_ ?_ id
  · exact fun other hother => absurd hother (hnone other)
  · exact fun other hother =>
      absurd (CallStage.number?_of_slot? hother) (hnone other)
  · exact fun other hother =>
      absurd (CallStage.number?_of_slot? (CallStage.slot?_of_sure? hother))
        (hnone other)
  · intro other hmem
    obtain ⟨hbefore, hne⟩ := Connection.mem_pending_release.mp hmem
    refine ⟨hbefore, fun hother => ?_⟩
    rw [hslot] at hother
    exact absurd (by rw [Option.some.inj hother]) hne
  · intro k other hk hserved
    -- the call clears its own slot only, since no other call has its number
    have hne : other ≠ call := by
      rintro rfl
      rcases cases_of_moved hstage hk with ⟨-, hb⟩ | ⟨hki, hk⟩
      · exact hnone other (CallStage.number?_of_slot? hb)
      · exact hki (h.apart k i other (number?_of_slot? hk)
          (number?_of_slot? hown))
    rcases hserved with hserves | hlost
    · exact Or.inl (hserves.release hne)
    · exact Or.inr hlost

theorem Steady.allot (h : s.Steady) (hold : s.stage? i = some .checked) :
    (s.move i s.connection.allot.2
      (.numbered s.connection.allot.1)).Steady := by
  have hstage :=
    stage?_move hold s.connection.allot.2 (.numbered s.connection.allot.1)
  have hfresh (k call : Nat) (hk : s.number? k = some call) :
      call ≠ s.connection.nextCall :=
    Nat.ne_of_lt (h.counted k call hk)
  constructor
  · intro k call hk
    rcases cases_of_moved hstage hk with ⟨-, hb⟩ | ⟨-, hk⟩
    · obtain rfl : s.connection.nextCall = call := Option.some.inj hb
      exact Nat.lt_succ_self _
    · exact Nat.lt_succ_of_lt (h.counted k call hk)
  · intro k l call hk hl
    rcases cases_of_moved hstage hk with ⟨hki, hb⟩ | ⟨-, hk⟩
    · rcases cases_of_moved hstage hl with ⟨hli, -⟩ | ⟨-, hl⟩
      · rw [hki, hli]
      · exact absurd (Option.some.inj hb).symm (hfresh l call hl)
    · rcases cases_of_moved hstage hl with ⟨-, hb⟩ | ⟨-, hl⟩
      · exact absurd (Option.some.inj hb).symm (hfresh k call hk)
      · exact h.apart k l call hk hl
  · intro k call hk
    rcases cases_of_moved hstage hk with ⟨-, hb⟩ | ⟨-, hk⟩
    · cases hb
    · exact h.served k call hk
  · intro hdrain k call hk
    rcases cases_of_moved hstage hk with ⟨-, hb⟩ | ⟨-, hk⟩
    · cases hb
    · exact h.drained hdrain k call hk
  · intro call hmem
    obtain ⟨k, hk⟩ := h.owned call hmem
    refine ⟨k, ?_⟩
    have hki : k ≠ i := by
      rintro rfl
      rw [slot?_of_stage? hold] at hk
      exact nomatch hk
    rw [slot?_of_moved hstage, if_neg hki, hk]

theorem Steady.enter (h : s.Steady) {call : Nat}
    (hold : s.stage? i = some (.numbered call)) :
    (s.move i (s.connection.enter call) (.entered call)).Steady := by
  have hstage := stage?_move hold (s.connection.enter call) (.entered call)
  have hnumber {k other : Nat}
      (hk : (s.move i (s.connection.enter call) (.entered call)).number? k =
        some other) :
      s.number? k = some other := by
    rcases cases_of_moved hstage hk with ⟨rfl, hb⟩ | ⟨-, hk⟩
    · rw [number?_of_stage? hold]
      exact hb
    · exact hk
  have hfree (k : Nat) : s.slot? k ≠ some call := by
    intro hk
    have hki := h.apart k i call (number?_of_slot? hk) (number?_of_stage? hold)
    rw [hki, slot?_of_stage? hold] at hk
    exact nomatch hk
  constructor
  · intro k other hk
    exact Nat.lt_of_lt_of_eq (h.counted k other (hnumber hk))
      (Connection.enter_nextCall _ _).symm
  · intro k l other hk hl
    exact h.apart k l other (hnumber hk) (hnumber hl)
  · intro k other hk
    rcases cases_of_moved hstage hk with ⟨-, hb⟩ | ⟨-, hk⟩
    · obtain rfl : call = other := Option.some.inj hb
      exact Or.inl (Connection.serves_enter_self _ _)
    · rcases h.served k other hk with hserves | hlost
      · exact Or.inl (hserves.enter call)
      · exact Or.inr hlost
  · intro hdrain k other hk hmem
    rcases cases_of_moved hstage hk with ⟨-, hb⟩ | ⟨-, hsure⟩
    · cases hb
    · rcases Connection.mem_pending_enter.mp hmem with rfl | ⟨hbefore, -⟩
      · exact hfree k (slot?_of_sure? hsure)
      · exact h.drained hdrain k other hsure hbefore
  · intro other hmem
    rcases Connection.mem_pending_enter.mp hmem with rfl | ⟨hbefore, -⟩
    · exact ⟨i, by rw [slot?_of_moved hstage, if_pos rfl]; rfl⟩
    · obtain ⟨k, hk⟩ := h.owned other hbefore
      have hki : k ≠ i := by
        rintro rfl
        rw [slot?_of_stage? hold] at hk
        exact nomatch hk
      exact ⟨k, by rw [slot?_of_moved hstage, if_neg hki, hk]⟩

end Move

/-! ## Other steps -/

section Others

variable {s s' : Traffic}

theorem Steady.of_calls (h : s.Steady)
    (hsame : ∀ k, s'.number? k = s.number? k ∧ s'.slot? k = s.slot? k ∧
      s'.sure? k = s.sure? k)
    (hnext : s'.connection.nextCall = s.connection.nextCall)
    (hpending : ∀ call ∈ s'.connection.pending, call ∈ s.connection.pending)
    (hserved : ∀ call, s.connection.Serves call ∨ s.Lost call →
      s'.connection.Serves call ∨ s'.Lost call)
    (hdrained : s'.Drained → s.Drained ∨ s'.connection.pending = []) :
    s'.Steady := by
  apply h.of_fewer
  · exact Nat.le_of_eq hnext.symm
  · intro k call hk
    rwa [(hsame k).1] at hk
  · intro k call hk
    rwa [(hsame k).2.1] at hk
  · exact hpending
  · intro k call hk _
    rwa [(hsame k).2.1]
  · exact fun k call _ => hserved call
  · intro hdrain k call hk hmem
    rcases hdrained hdrain with hbefore | hnil
    · refine ⟨hbefore, ?_⟩
      rwa [(hsame k).2.2] at hk
    · rw [hnil] at hmem
      exact nomatch hmem

theorem stage?_call (method : String) (params : Json) (k : Nat) :
    (s.step (.call method params)).stage? k = s.stage? k ∨
      (s.stage? k = none ∧ (s.step (.call method params)).stage? k =
        some .begun) := by
  unfold stage? step
  rw [List.getElem?_append]
  split
  · exact Or.inl rfl
  · next hlength =>
      have hnone : s.calls[k]? = none :=
        List.getElem?_eq_none (Nat.le_of_not_lt hlength)
      rw [List.getElem?_singleton, hnone]
      split
      · exact Or.inr ⟨rfl, rfl⟩
      · exact Or.inl rfl

theorem Steady.call (h : s.Steady) (method : String) (params : Json) :
    (s.step (.call method params)).Steady := by
  refine h.of_calls (fun k => ?_) rfl (fun _ hmem => hmem)
    (fun _ hserved => hserved) Or.inl
  unfold number? slot? sure?
  rcases stage?_call method params k with hsame | ⟨hnone, hbegun⟩
  · rw [hsame]
    exact ⟨rfl, rfl, rfl⟩
  · rw [hnone, hbegun]
    exact ⟨rfl, rfl, rfl⟩

theorem Lost.of_append {call : Nat} (h : s.Lost call) (more : List CloseStage)
    (hclosers : s'.closers = s.closers ++ more) : s'.Lost call := by
  obtain ⟨j, rest, hj, hmem⟩ := h
  refine ⟨j, rest, ?_, hmem⟩
  rw [hclosers, List.getElem?_append_left (List.getElem?_eq_some_iff.mp hj).1,
    hj]

theorem Drained.of_append_begun (h : s'.Drained)
    (hclosers : s'.closers = s.closers ++ [.begun]) : s.Drained := by
  obtain ⟨j, stage, hj, hdrained⟩ := h
  rw [hclosers, List.getElem?_append] at hj
  split at hj
  · exact ⟨j, stage, hj, hdrained⟩
  · rw [List.getElem?_singleton] at hj
    split at hj
    · obtain rfl : CloseStage.begun = stage := Option.some.inj hj
      exact nomatch hdrained
    · exact nomatch hj

theorem Lost.of_set {call j : Nat} {old stage : CloseStage} (h : s.Lost call)
    (hj : s.closers[j]? = some old)
    (hclosers : s'.closers = s.closers.set j stage)
    (hkept : ∀ rest, old = .failing rest → call ∈ rest → s'.Lost call) :
    s'.Lost call := by
  obtain ⟨k, rest, hk, hmem⟩ := h
  by_cases hkj : k = j
  · rw [hkj, hj] at hk
    exact hkept rest (Option.some.inj hk) hmem
  · refine ⟨k, rest, ?_, hmem⟩
    rw [hclosers, List.getElem?_set_ne (Ne.symm hkj), hk]

theorem lost_of_set_failing {j call : Nat} {old : CloseStage} {rest : List Nat}
    (hj : s.closers[j]? = some old)
    (hclosers : s'.closers = s.closers.set j (.failing rest))
    (hmem : call ∈ rest) : s'.Lost call := by
  refine ⟨j, rest, ?_, hmem⟩
  rw [hclosers, List.getElem?_set_self (List.getElem?_eq_some_iff.mp hj).1]

theorem Drained.of_set {j : Nat} {stage : CloseStage} (h : s'.Drained)
    (hclosers : s'.closers = s.closers.set j stage) :
    s.Drained ∨ stage.hasDrained = true := by
  obtain ⟨k, found, hk, hdrained⟩ := h
  rw [hclosers, List.getElem?_set] at hk
  split at hk
  · split at hk
    · obtain rfl : stage = found := Option.some.inj hk
      exact Or.inr hdrained
    · exact nomatch hk
  · exact Or.inl ⟨k, found, hk, hdrained⟩

theorem Steady.close (h : s.Steady) : (s.step .close).Steady := by
  refine h.of_calls (fun _ => ⟨rfl, rfl, rfl⟩) rfl (fun _ hmem => hmem) ?_ ?_
  · intro call hserved
    exact hserved.imp_right fun hlost => hlost.of_append [.begun] rfl
  · exact fun hdrain => Or.inl (hdrain.of_append_begun rfl)

theorem Steady.setCloser (h : s.Steady) {j : Nat} {old stage : CloseStage}
    (hj : s.closers[j]? = some old)
    (hold : ∀ rest, old = .failing rest → rest = [])
    (hnew : stage.hasDrained = true → old.hasDrained = true) (closed : Bool) :
    Steady { s with
      connection := { s.connection with closed := closed }
      closers := s.closers.set j stage } := by
  refine h.of_calls (fun _ => ⟨rfl, rfl, rfl⟩) rfl (fun _ hmem => hmem) ?_ ?_
  · intro call hserved
    refine hserved.imp_right fun hlost =>
      hlost.of_set hj rfl fun rest heq hmem => ?_
    rw [hold rest heq] at hmem
    exact nomatch hmem
  · intro hdrain
    rcases hdrain.of_set rfl with hbefore | hdrained
    · exact Or.inl hbefore
    · exact Or.inl ⟨j, old, hj, hnew hdrained⟩

theorem Steady.drain (h : s.Steady) {j : Nat}
    (hj : s.closers[j]? = some .first) :
    (s.advanceCloser j .first).Steady := by
  have hnil : (s.advanceCloser j .first).connection.pending = [] := by
    simp [Traffic.advanceCloser, Connection.drain, Connection.removeSlots]
  have hlost : s.connection.drain.1 = s.connection.pending :=
    List.filter_eq_self.mpr fun _ _ => rfl
  refine h.of_calls (fun _ => ⟨rfl, rfl, rfl⟩) rfl ?_ ?_ fun _ => Or.inr hnil
  · intro call hmem
    rw [hnil] at hmem
    cases hmem
  · intro call hserved
    rcases hserved with (hslot | hreply) | hbefore
    -- a slot that is taken is one that the closer is about to fail
    · rw [← hlost] at hslot
      exact Or.inr (lost_of_set_failing hj rfl hslot)
    · exact Or.inl (Or.inr hreply)
    · refine Or.inr (hbefore.of_set hj rfl ?_)
      intro rest heq
      cases heq

theorem Steady.fail (h : s.Steady) {j call : Nat} {rest : List Nat}
    (hj : s.closers[j]? = some (.failing (call :: rest))) :
    (s.advanceCloser j (.failing (call :: rest))).Steady := by
  refine h.of_calls (fun _ => ⟨rfl, rfl, rfl⟩) rfl (fun _ hmem => hmem)
    ?_ fun _ =>
    Or.inl ⟨j, _, hj, rfl⟩
  intro other hserved
  by_cases hother : other = call
  · refine Or.inl (Or.inr ?_)
    show ((s.connection.fail call).reply? other).isSome = true
    rw [Connection.reply?_fail]
    exact Connection.Serves.of_lost (Or.inr (by simp [hother]))
  · rcases hserved with hserves | hlost
    · exact Or.inl (hserves.fail call)
    · refine Or.inr (hlost.of_set hj rfl fun before heq hmem => ?_)
      obtain rfl : call :: rest = before := CloseStage.failing.inj heq
      rcases List.mem_cons.mp hmem with heq' | hrest
      · exact absurd heq' hother
      · exact lost_of_set_failing hj rfl hrest

theorem Steady.advanceCloser (h : s.Steady) {j : Nat} {stage : CloseStage}
    (hj : s.closers[j]? = some stage) : (s.advanceCloser j stage).Steady := by
  cases stage with
  | begun =>
      show Steady (if s.connection.closed then _ else _)
      split
      · exact h.setCloser hj (fun _ heq =>
          nomatch heq) (by intro hnew; cases hnew) _
      · exact h.setCloser hj (fun _ heq =>
          nomatch heq) (by intro hnew; cases hnew) true
  | first =>
      exact h.drain hj
  | failing lost =>
      cases lost with
      | nil =>
          exact h.setCloser hj (fun _ heq => (CloseStage.failing.inj heq).symm)
            (fun _ => rfl) _
      | cons call rest =>
          exact h.fail hj
  | finished first =>
      exact h

theorem Steady.respond (h : s.Steady) (id : Nat) (outcome : Outcome) :
    (s.step (.respond id outcome)).Steady := by
  refine h.of_calls (fun _ =>
    ⟨rfl, rfl, rfl⟩) (Connection.complete_nextCall _ _ _) ?_ ?_ Or.inl
  · intro call hmem
    change call ∈ (s.connection.complete id outcome).pending at hmem
    rcases Connection.complete_cases s.connection id outcome with
      ⟨taken, -, -, heq⟩ | ⟨-, heq⟩
    · rw [heq] at hmem
      exact (List.mem_filter.mp hmem).1
    · rwa [heq] at hmem
  · exact fun call hserved =>
      hserved.imp_left fun hserves => hserves.complete id outcome

end Others

/-! ## Every step -/

section Every

variable {s : Traffic} {i : Nat} {task : CallTask}

theorem stage?_of_task (htask : s.calls[i]? = some task) :
    s.stage? i = some task.stage := by
  rw [stage?, htask, Option.map_some]

theorem Steady.end_begun (h : s.Steady) (hold : s.stage? i = some .begun)
    {b : CallStage} (hnumber : b.number? = none) (hslot : b.slot? = none)
    (hsure : b.sure? = none) :
    (s.move i s.connection b).Steady := by
  refine h.of_quiet hold (stage?_move hold _ b) rfl rfl rfl ?_ hslot ?_
    (fun _ => id) id
  · intro call hcall
    rw [hnumber] at hcall
    exact nomatch hcall
  · intro call hcall
    rw [hsure] at hcall
    exact nomatch hcall

theorem not_drained_of_open (h : OneFirst s.connection.closed s.closers)
    (hopen : s.connection.checkOpen = .ok ()) : ¬ s.Drained := by
  rintro ⟨j, stage, hj, hdrained⟩
  have hclosed :=
    h.closed j stage hj (CloseStage.isFirst_of_hasDrained hdrained)
  rw [Connection.checkOpen, if_pos hclosed] at hopen
  cases hopen

theorem Steady.advance (h : s.Steady)
    (hfirst : OneFirst s.connection.closed s.closers)
    (htask : s.calls[i]? = some task) : (s.advance i task).Steady := by
  have hold := stage?_of_task htask
  unfold Traffic.advance
  cases hstage : task.stage with
  | begun =>
      rw [hstage] at hold
      cases hopen : s.connection.checkOpen with
      | error f =>
          exact h.end_begun hold rfl rfl rfl
      | ok _ =>
          exact h.end_begun hold rfl rfl rfl
  | checked =>
      rw [hstage] at hold
      exact h.allot hold
  | numbered call =>
      rw [hstage] at hold
      exact h.enter hold
  | entered call =>
      rw [hstage] at hold
      cases hopen : s.connection.checkOpen with
      | error f =>
          exact h.leave hold rfl rfl
      | ok _ =>
          -- the second check: whoever passes it has entered before the slots
          -- are taken
          refine h.of_quiet hold (stage?_move hold _ _) rfl rfl rfl (fun _ =>
            id) rfl ?_ (fun _ => id) id
          exact fun _ _ => Or.inr (not_drained_of_open hfirst hopen)
  | rechecked call =>
      rw [hstage] at hold
      cases hwriter : s.writer with
      | some k =>
          exact h
      | none =>
          cases hopen : s.connection.checkOpen with
          | error f =>
              exact h.leave hold rfl rfl
          | ok _ =>
              exact h.of_quiet hold
                (stage?_move hold s.connection (.writing call)) rfl rfl rfl
                (fun _ => id) rfl (fun _ => Or.inl) (fun _ => id) id
  | writing call =>
      rw [hstage] at hold
      simp only
      cases hput :
        s.connection.put? (.request (number call) task.method task.params) with
      | some c =>
          have hc := Connection.put?_eq_some hput
          have hnext : c.nextCall = s.connection.nextCall := by rw [hc]
          have hpending : c.pending = s.connection.pending := by rw [hc]
          have hreplies : c.replies = s.connection.replies := by rw [hc]
          exact h.of_quiet hold (stage?_move hold c (.waiting call)) hnext
            hpending hreplies (fun _ => id) rfl (fun _ => Or.inl)
            (fun _ => id) id
      | none =>
          exact h.of_quiet hold
            (stage?_move hold s.connection (.closing call s.closers.length))
            rfl rfl rfl (fun _ => id) rfl (fun _ => Or.inl)
              (fun _ hlost => hlost.of_append [.begun] rfl)
            fun hdrain => hdrain.of_append_begun rfl
  | waiting call =>
      rw [hstage] at hold
      simp only
      cases hreply : s.connection.reply? call with
      | some reply =>
          exact h.leave hold rfl rfl
      | none =>
          exact h
  | closing call closer =>
      rw [hstage] at hold
      simp only
      split
      · exact h.leave hold rfl rfl
      · exact h
  | ended reply =>
      exact h
  | dropped =>
      exact h

theorem Steady.timeOut (h : s.Steady) (limit : Duration)
    (htask : s.calls[i]? = some task) :
    (s.timeOut i limit task).Steady := by
  have hold := stage?_of_task htask
  unfold Traffic.timeOut
  split
  · next call hstage =>
      rw [hstage] at hold
      split
      · exact h
      · exact h.leave hold rfl rfl
  · exact h

theorem Steady.drop (h : s.Steady) (htask : s.calls[i]? = some task) :
    (s.drop i task).Steady := by
  have hold := stage?_of_task htask
  unfold Traffic.drop
  split
  · next hstage =>
      rw [hstage] at hold
      exact h.end_begun hold rfl rfl rfl
  · next call hstage =>
      rw [hstage] at hold
      exact h.leave hold rfl rfl
  · next call hstage =>
      rw [hstage] at hold
      exact h.leave hold rfl rfl
  · next call hstage =>
      rw [hstage] at hold
      have hleft : (s.leave i call .dropped).Steady := h.leave hold rfl rfl
      exact ⟨hleft.counted, hleft.apart, hleft.served, hleft.drained,
        hleft.owned⟩
  · exact h

end Every

end Traffic

end CodeIntel
