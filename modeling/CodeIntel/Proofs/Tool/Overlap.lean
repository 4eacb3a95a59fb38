import CodeIntel.Proofs.Client.Opening
import CodeIntel.Proofs.Tool.Program
import Mathlib.Data.List.Induction
import Mathlib.Data.List.Infix

/-!
# Two edits of one file

Two calls that edit lines of one file, with their steps in any order. Nothing
keeps one call from reading the file while the other has not told the server of
its change yet. If none does, the calls might as well have been made one after
the other. If one does, both start from the same text, and the edits of the one
that writes first are lost on the disk, those of the one that tells first are
lost with the server.
-/

namespace CodeIntel

structure EditRequest where
  file : String
  edits : List LineEdit

def EditRequest.path (root : FilePath) (q : EditRequest) : FilePath :=
  root.joinTo (.ofString q.file)

/-! # Stages of a call -/

/-- How far a call has come that has not failed in so many steps, and has read
the text `seen`. -/
inductive EditStage (root : FilePath) (q : EditRequest) (seen : String) :
    Nat → EditTask String → Prop
  | opening : EditStage root q seen 0 (.ready (.editFile root q.file q.edits))
  | reading : EditStage root q seen 1 (.reading (q.path root) q.edits)
  | reckoning :
      EditStage root q seen 2 (.ready (.rewrite (q.path root) q.edits seen))
  | writing {updated : String} {summary : EditSummary}
      (h : LineEdit.apply seen q.edits = .ok (updated, summary)) :
      EditStage root q seen 3
        (.ready (.save (q.path root) updated (.ended (.ok summary.text))))
  | telling {updated : String} {summary : EditSummary}
      (h : LineEdit.apply seen q.edits = .ok (updated, summary)) :
      EditStage root q seen 4
        (.written (q.path root) updated (.ended (.ok summary.text)))
  | done {updated : String} {summary : EditSummary} {n : Nat} (hn : 5 ≤ n)
      (h : LineEdit.apply seen q.edits = .ok (updated, summary)) :
      EditStage root q seen n (.ended (.ok summary.text))

namespace EditStage

variable {σ : Type} {root : FilePath} {q : EditRequest} {seen : String}
  {t t' : EditTask String} {c c' : Client σ} {n : Nat}

theorem open_file (h : EditStage root q seen 0 t) (hstep : t.step c = (t', c'))
    (hfault : ∀ f, t' ≠ .ended (.error f)) :
    EditStage root q seen 1 t' ∧ ∃ uri, Client.openFile (q.path root) c =
      (.ok uri, c') := by
  cases h with
  | opening =>
      rw [EditProgram.editFile] at hstep
      split at hstep
      · obtain ⟨rfl, rfl⟩ := Prod.mk.inj hstep
        exact absurd rfl (hfault _)
      · obtain ⟨uri, heq, rfl⟩ := EditTask.proceed_eq hstep hfault
        exact ⟨reading, uri, Tool.ask_eq_ok.mp heq⟩
  | done hn happly =>
      omega

theorem read_text (h : EditStage root q seen 1 t) (hstep : t.step c = (t', c'))
    (hfault : ∀ f, t' ≠ .ended (.error f)) :
    ∃ text, c.text (q.path root) = .ok text ∧ EditStage root q text 2 t' ∧
    c' = c := by
  cases h with
  | reading =>
      obtain ⟨text, heq, rfl⟩ := EditTask.proceed_eq hstep hfault
      obtain ⟨hread, rfl⟩ := Tool.readText_eq_ok heq
      exact ⟨text, hread, reckoning, rfl⟩
  | done hn happly =>
      omega

theorem apply_edits (h : EditStage root q seen 2 t)
    (hstep : t.step c = (t', c')) (hfault : ∀ f, t' ≠ .ended (.error f)) :
    EditStage root q seen 3 t' ∧ c' = c := by
  cases h with
  | reckoning =>
      rw [EditTask.step_rewrite] at hstep
      obtain ⟨rfl, rfl⟩ := Prod.mk.inj hstep
      cases happly : LineEdit.apply seen q.edits with
      | error f =>
          simp only [happly] at hfault
          exact absurd rfl (hfault f)
      | ok result =>
          exact ⟨writing happly, rfl⟩
  | done hn happly =>
      omega

theorem write_text (h : EditStage root q seen 3 t) (hstep : t.step c = (t', c'))
    (hfault : ∀ f, t' ≠ .ended (.error f)) :
    EditStage root q seen 4 t' ∧ ∃ updated summary disk,
      LineEdit.apply seen q.edits = .ok (updated, summary) ∧
      c.disk.writeText (q.path root) updated = .ok disk ∧
      c' = { c with disk := disk } := by
  cases h with
  | writing happly =>
      obtain ⟨u, heq, rfl⟩ := EditTask.proceed_eq hstep hfault
      obtain ⟨disk, hwrite, rfl⟩ := Tool.writeText_eq_ok heq
      exact ⟨telling happly, _, _, disk, happly, hwrite, rfl⟩
  | done hn happly =>
      omega

theorem change_file (h : EditStage root q seen 4 t)
    (hstep : t.step c = (t', c')) (hfault : ∀ f, t' ≠ .ended (.error f)) :
    EditStage root q seen 5 t' ∧ ∃ updated summary version,
      LineEdit.apply seen q.edits = .ok (updated, summary) ∧
      Client.changeFile (q.path root) updated c = (.ok version, c') := by
  cases h with
  | telling happly =>
      obtain ⟨version, heq, rfl⟩ := EditTask.proceed_eq hstep hfault
      exact ⟨done (Nat.le_refl 5) happly, _, _, version, happly,
        Tool.ask_eq_ok.mp heq⟩
  | done hn happly =>
      omega

theorem later (h : EditStage root q seen n t) (hn : 5 ≤ n) :
    EditStage root q seen (n + 1) t := by
  cases h with
  | done _ happly => exact done (by omega) happly
  | opening => omega
  | reading => omega
  | reckoning => omega
  | writing => omega
  | telling => omega

theorem idle (h : EditStage root q seen n t) (hn : 5 ≤ n)
    (hstep : t.step c = (t', c')) :
    t' = t ∧ c' = c := by
  cases h with
  | done _ happly =>
      obtain ⟨rfl, rfl⟩ := Prod.mk.inj hstep
      exact ⟨rfl, rfl⟩
  | opening => omega
  | reading => omega
  | reckoning => omega
  | writing => omega
  | telling => omega

theorem advance (h : EditStage root q seen n t) (hstep : t.step c = (t', c'))
    (hfault : ∀ f, t' ≠ .ended (.error f)) :
    ∃ seen', EditStage root q seen' (n + 1) t' := by
  match n, h with
  | 0, h => exact ⟨seen, (h.open_file hstep hfault).1⟩
  | 1, h =>
      obtain ⟨text, -, hstage, -⟩ := h.read_text hstep hfault
      exact ⟨text, hstage⟩
  | 2, h => exact ⟨seen, (h.apply_edits hstep hfault).1⟩
  | 3, h => exact ⟨seen, (h.write_text hstep hfault).1⟩
  | 4, h => exact ⟨seen, (h.change_file hstep hfault).1⟩
  | n + 5, h =>
      rw [(h.idle (Nat.le_add_left 5 n) hstep).1]
      exact ⟨seen, h.later (Nat.le_add_left 5 n)⟩

theorem ended (h : EditStage root q seen n t) (hn : 5 ≤ n) :
    ∃ updated summary, LineEdit.apply seen q.edits = .ok (updated, summary) ∧
      t = .ended (.ok summary.text) := by
  cases h with
  | done _ happly => exact ⟨_, _, happly, rfl⟩
  | opening => omega
  | reading => omega
  | reckoning => omega
  | writing => omega
  | telling => omega

theorem five_le (h : EditStage root q seen n t) {report : String}
    (ht : t = .ended (.ok report)) :
    5 ≤ n := by
  cases h with
  | done hn _ => exact hn
  | opening =>
      unfold EditProgram.editFile at ht
      split at ht
      · exact nomatch EditProgram.ended.inj (EditTask.ready.inj ht)
      · exact nomatch EditTask.ready.inj ht
  | reading => exact nomatch EditTask.ready.inj ht
  | reckoning => exact nomatch EditTask.ready.inj ht
  | writing => exact nomatch EditTask.ready.inj ht
  | telling => exact nomatch ht

end EditStage

/-! # Callers -/

inductive Caller where
  | first
  | second
deriving DecidableEq

namespace Caller

def other : Caller → Caller
  | .first => .second
  | .second => .first

@[simp] theorem other_other (i : Caller) : i.other.other = i := by
  cases i <;> rfl

theorem other_ne (i : Caller) : i.other ≠ i := by
  cases i <;> decide

theorem eq_or_eq_other (i j : Caller) : j = i ∨ j = i.other := by
  cases i <;> cases j <;> decide

theorem count_snoc_self (schedule : List Caller) (i : Caller) :
    (schedule ++ [i]).count i = schedule.count i + 1 := by
  rw [List.count_append, List.count_singleton_self]

theorem count_snoc_of_ne {i j : Caller} (h : i ≠ j) (schedule : List Caller) :
    (schedule ++ [j]).count i = schedule.count i := by
  rw [List.count_append, List.count_singleton, if_neg (by simpa using h.symm),
    Nat.add_zero]

end Caller

/-- Two calls that share a client. -/
structure Overlap (σ : Type) where
  client : Client σ
  task : Caller → EditTask String

namespace Overlap

variable {σ : Type}

def start (c : Client σ) (requests : Caller → EditRequest) : Overlap σ :=
  ⟨c, fun i => .ready (.editFile c.root (requests i).file (requests i).edits)⟩

def step (s : Overlap σ) (i : Caller) : Overlap σ :=
  let (task, client) := (s.task i).step s.client
  ⟨client, fun j => if j = i then task else s.task j⟩

def run (s : Overlap σ) (schedule : List Caller) : Overlap σ :=
  schedule.foldl step s

def Failed (s : Overlap σ) : Prop :=
  ∃ i f, s.task i = .ended (.error f)

theorem run_append (s : Overlap σ) (front rest : List Caller) :
    s.run (front ++ rest) = (s.run front).run rest :=
  List.foldl_append

theorem run_snoc (s : Overlap σ) (front : List Caller) (i : Caller) :
    s.run (front ++ [i]) = (s.run front).step i :=
  run_append s front [i]

theorem step_task_self (s : Overlap σ) (i : Caller) :
    (s.step i).task i = ((s.task i).step s.client).1 :=
  if_pos rfl

theorem step_task_of_ne {i j : Caller} (h : j ≠ i) (s : Overlap σ) :
    (s.step i).task j = s.task j :=
  if_neg h

theorem step_of_ended {s : Overlap σ} {i : Caller} {r : Except ToolFault String}
    (h : s.task i = .ended r) : s.step i = s := by
  unfold step
  rw [h]
  show Overlap.mk s.client _ = s
  congr
  funext j
  split
  · next hj =>
      rw [hj, h]
  · rfl

theorem Failed.step {s : Overlap σ} (h : s.Failed) (j : Caller) :
    (s.step j).Failed := by
  obtain ⟨i, f, hi⟩ := h
  by_cases hj : i = j
  · subst hj
    rw [step_of_ended hi]
    exact ⟨i, f, hi⟩
  · exact ⟨i, f, by rw [step_task_of_ne hj, hi]⟩

theorem Failed.run {s : Overlap σ} (h : s.Failed) (schedule : List Caller) :
    (s.run schedule).Failed := by
  induction schedule generalizing s with
  | nil =>
      exact h
  | cons i rest ih =>
      exact ih (h.step i)

/-! # One call after the other -/

theorem not_failed_of_run {s : Overlap σ} {front rest : List Caller}
    (h : ¬(s.run (front ++ rest)).Failed) : ¬(s.run front).Failed := by
  intro hfailed
  rw [run_append] at h
  exact h (hfailed.run rest)

theorem task_run_replicate {i j : Caller} (h : j ≠ i) (s : Overlap σ)
    (n : Nat) :
    (s.run (List.replicate n i)).task j = s.task j := by
  induction n generalizing s with
  | zero =>
      rfl
  | succ n ih =>
      exact (ih (s.step i)).trans (step_task_of_ne h s)

theorem perform_run_replicate (s : Overlap σ) (i : Caller) (n : Nat) :
    ((s.run (List.replicate n i)).task i).perform
      (s.run (List.replicate n i)).client = (s.task i).perform s.client := by
  induction n generalizing s with
  | zero =>
      rfl
  | succ n ih =>
      refine (ih (s.step i)).trans ?_
      rw [step_task_self]
      exact EditTask.perform_step (s.task i) s.client

theorem run_of_ended {s : Overlap σ} {i : Caller}
    {result : Except ToolFault String} (h : s.task i = .ended result)
    (rest : List Caller) :
    s.run rest = s.run (List.replicate (rest.count i.other) i.other) := by
  induction rest generalizing s with
  | nil =>
      rfl
  | cons j rest ih =>
      rcases i.eq_or_eq_other j with rfl | rfl
      · rw [List.count_cons_of_ne (Caller.other_ne j).symm]
        show (s.step j).run rest = _
        rw [step_of_ended h, ih h]
      · rw [List.count_cons_self, List.replicate_succ]
        apply ih
        rw [step_task_of_ne (Caller.other_ne i).symm, h]

/-- The two calls are about one file. -/
structure OnFile (root : FilePath) (requests : Caller → EditRequest)
    (r : FilePath) (c : Client σ) : Prop where
  sameRoot : c.root = root
  current : c.disk.HasCurrent
  real : ∀ i, c.disk.realPath ((requests i).path root) = .ok r

variable {root r : FilePath} {requests : Caller → EditRequest} {c : Client σ}
  {s : Overlap σ} {i : Caller}

theorem OnFile.step (h : OnFile root requests r s.client) (i : Caller) :
    OnFile root requests r (s.step i).client := by
  have hkeeps : Client.Keeps s.client (s.step i).client :=
    (s.task i).keeps_step h.current
  constructor
  · exact hkeeps.root.trans h.sameRoot
  · exact hkeeps.current
  · intro j
    exact hkeeps.real (h.real j)

theorem OnFile.run (h : OnFile root requests r s.client)
    (schedule : List Caller) :
    OnFile root requests r (s.run schedule).client := by
  induction schedule generalizing s with
  | nil =>
      exact h
  | cons i rest ih =>
      exact ih (h.step i)

def Opened (r : FilePath) (c : Client σ) : Prop :=
  ∃ d, c.documents.table.find? r = some (.opened d)

theorem Opened.run (hcurrent : s.client.disk.HasCurrent) (h : Opened r s.client)
    (schedule : List Caller) : Opened r (s.run schedule).client := by
  induction schedule generalizing s with
  | nil =>
      exact h
  | cons i rest ih =>
      have hkeeps : Client.Keeps s.client (s.step i).client :=
        (s.task i).keeps_step hcurrent
      obtain ⟨d, hd⟩ := h
      exact ih hkeeps.current (hkeeps.opened hd)

theorem task_of_not_failed (h : ¬s.Failed) (i : Caller) (f : ToolFault) :
    s.task i ≠ .ended (.error f) := by
  intro hi
  exact h ⟨i, f, hi⟩

theorem step_eq {t : EditTask String} {c' : Client σ}
    (h : (s.task i).step s.client = (t, c')) :
    s.step i = ⟨c', fun j => if j = i then t else s.task j⟩ := by
  rw [step, h]

/-- Two steps that come to the same in both orders. -/
theorem step_diamond {t t' : EditTask String} {after after' both : Client σ}
    (hfirst : (s.task i).step s.client = (t, after))
    (hsecond : (s.task i.other).step after = (t', both))
    (hfirst' : (s.task i.other).step s.client = (t', after'))
    (hsecond' : (s.task i).step after' = (t, both)) :
    (s.step i).step i.other = (s.step i.other).step i := by
  have hne := i.other_ne
  have hleft :
      ((s.step i).task i.other).step (s.step i).client = (t', both) := by
    rw [step_task_of_ne hne, step_eq hfirst]
    exact hsecond
  have hright :
      ((s.step i.other).task i).step (s.step i.other).client = (t, both) := by
    rw [step_task_of_ne hne.symm, step_eq hfirst']
    exact hsecond'
  rw [step_eq hleft, step_eq hright, step_eq hfirst, step_eq hfirst']
  congr
  funext j
  rcases i.eq_or_eq_other j with rfl | rfl
  · simp only [if_neg hne.symm, if_true]
  · simp only [if_neg hne, if_true]

theorem edits_of_not_failed {q : EditRequest}
    (htask : s.task i = .ready (.editFile root q.file q.edits))
    (hok : ¬(s.step i).Failed) :
    q.edits.isEmpty = false := by
  cases hedits : q.edits.isEmpty with
  | false =>
      rfl
  | true =>
      apply absurd _ hok
      refine ⟨i, .invalidArguments "no edits given", ?_⟩
      rw [step_task_self, htask, EditProgram.editFile, hedits]
      rfl

theorem step_spec (s : Overlap σ) (i : Caller) :
    (s.task i).step s.client = ((s.step i).task i, (s.step i).client) :=
  Prod.ext (step_task_self s i).symm rfl

theorem OnFile.opened_of_step (h : OnFile root requests r s.client)
    (htask : s.task i =
      .ready (.editFile root (requests i).file (requests i).edits))
    (hok : ¬(s.step i).Failed) :
    ∃ uri, Client.openFile ((requests i).path root) s.client =
      (.ok uri, (s.step i).client) ∧ Opened r (s.step i).client := by
  have hstep := step_spec s i
  rw [htask] at hstep
  have hstage : EditStage root (requests i) "" 0
      (.ready (.editFile root (requests i).file (requests i).edits)) := .opening
  obtain ⟨-, uri, hopen⟩ := hstage.open_file hstep (task_of_not_failed hok i)
  obtain ⟨q, d, hreal, hd, -⟩ := Client.opened_of_openFile hopen
  obtain rfl : q = r := Except.ok.inj (hreal.symm.trans (h.real i))
  exact ⟨uri, hopen, d, hd⟩

theorem step_comm (h : OnFile root requests r s.client)
    (hother : s.task i.other =
      .ready (.editFile root (requests i.other).file (requests i.other).edits))
    (hfirst : Opened r s.client ∨
      s.task i = .ready (.editFile root (requests i).file (requests i).edits))
    (hok : ¬((s.step i.other).step i).Failed) :
    (s.step i).step i.other = (s.step i.other).step i := by
  have hok' : ¬(s.step i.other).Failed := fun hfailed => hok (hfailed.step i)
  have hedits := edits_of_not_failed hother hok'
  rcases hfirst with ⟨d, hd⟩ | hfirst
  · obtain ⟨d', hd'⟩ := ((s.task i).keeps_step h.current).opened hd
    have hbefore :=
      EditTask.step_editFile hedits
        (Client.openFile_of_opened (h.real i.other) hd)
    have hafter :=
      EditTask.step_editFile hedits
        (Client.openFile_of_opened ((h.step i).real i.other) hd')
    rw [← hother] at hbefore hafter
    exact step_diamond rfl hafter hbefore rfl
  -- both open the file: the second one finds it open
  · obtain ⟨uri, hopen, d, hd⟩ := h.opened_of_step hother hok'
    have htask : (s.step i.other).task i =
        .ready (.editFile root (requests i).file (requests i).edits) := by
      rw [step_task_of_ne i.other_ne.symm, hfirst]
    have hedits' := edits_of_not_failed htask hok
    have hopen' :=
      (Client.openFile_congr (h.real i) (h.real i.other)).trans hopen
    have hboth (j : Caller) :=
      Client.openFile_of_opened ((h.step i.other).real j) hd
    have hi := EditTask.step_editFile hedits' hopen'
    have ho := EditTask.step_editFile hedits hopen
    have hi' := EditTask.step_editFile hedits' (hboth i)
    have ho' := EditTask.step_editFile hedits (hboth i.other)
    rw [← hfirst] at hi hi'
    rw [← hother] at ho ho'
    exact step_diamond hi ho' ho hi'

theorem OnFile.task_start (h : OnFile root requests r c) (j : Caller) :
    (start c requests).task j =
      .ready (.editFile root (requests j).file (requests j).edits) := by
  rw [← h.sameRoot]
  rfl

theorem OnFile.opened_or_start (h : OnFile root requests r c)
    (i : Caller) (n : Nat)
    (hok : ¬((start c requests).run (List.replicate n i)).Failed) :
    Opened r ((start c requests).run (List.replicate n i)).client ∨
      ((start c requests).run (List.replicate n i)).task i =
        .ready (.editFile root (requests i).file (requests i).edits) := by
  cases n with
  | zero =>
      exact .inr (h.task_start i)
  | succ n =>
      have hstart : OnFile root requests r (start c requests).client := h
      have hfirst : ¬((start c requests).step i).Failed := by
        intro hfailed
        exact hok (hfailed.run (List.replicate n i))
      obtain ⟨-, -, hopened⟩ := hstart.opened_of_step (h.task_start i) hfirst
      exact .inl (hopened.run (hstart.step i).current (List.replicate n i))

/-- As long as one call has come no further than to open the file, that step may
as well be the last one. -/
theorem OnFile.run_eq (h : OnFile root requests r c) (i : Caller)
    {front : List Caller} (hcount : front.count i.other ≤ 1)
    (hok : ¬((start c requests).run front).Failed) :
    (start c requests).run front = (start c requests).run
      (List.replicate (front.count i) i ++
        List.replicate (front.count i.other) i.other) := by
  induction front using List.reverseRecOn with
  | nil =>
      rfl
  | append_singleton front j ih =>
      have hok' := not_failed_of_run hok
      rcases i.eq_or_eq_other j with rfl | rfl
      · rw [Caller.count_snoc_of_ne j.other_ne] at hcount ⊢
        have hrun := ih hcount hok'
        rw [run_snoc, hrun] at hok ⊢
        rw [Caller.count_snoc_self, List.replicate_succ']
        rcases Nat.le_one_iff_eq_zero_or_eq_one.mp hcount with hnone | hone
        · rw [hnone, List.replicate_zero, List.append_nil,
            List.append_nil, run_snoc]
        · rw [hone, List.replicate_one, run_snoc] at hok ⊢
          have hsolo : OnFile root requests r
              ((start c requests).run
                (List.replicate (front.count j) j)).client :=
            OnFile.run (s := start c requests) h _
          have hother :=
            task_run_replicate j.other_ne (start c requests) (front.count j)
          rw [h.task_start] at hother
          have hready := h.opened_or_start j (front.count j) (fun hfailed =>
            hok ((hfailed.step j.other).step j))
          rw [← step_comm hsolo hother hready hok, run_snoc, run_snoc]
      · rw [Caller.count_snoc_self] at hcount
        have hnone : front.count i.other = 0 := by omega
        rw [run_snoc, ih (by omega) hok', Caller.count_snoc_self,
          Caller.count_snoc_of_ne i.other_ne.symm, hnone, List.replicate_zero,
          List.append_nil, List.replicate_one, run_snoc]

theorem OnFile.staged (h : OnFile root requests r c) {front : List Caller}
    (hok : ¬((start c requests).run front).Failed) (j : Caller) :
    ∃ seen, EditStage root (requests j) seen (front.count j)
      (((start c requests).run front).task j) := by
  induction front using List.reverseRecOn with
  | nil =>
      refine ⟨"", ?_⟩
      show EditStage root (requests j) "" 0 ((start c requests).task j)
      rw [h.task_start j]
      exact .opening
  | append_singleton front k ih =>
      obtain ⟨seen, hstage⟩ := ih (not_failed_of_run hok)
      rw [run_snoc] at hok ⊢
      by_cases hk : j = k
      · subst hk
        rw [Caller.count_snoc_self]
        exact hstage.advance (step_spec _ j) (task_of_not_failed hok j)
      · rw [Caller.count_snoc_of_ne hk, step_task_of_ne hk]
        exact ⟨seen, hstage⟩

theorem not_failed_of_ended
    (h : ∀ j, ∃ report, s.task j = .ended (.ok report)) : ¬s.Failed := by
  rintro ⟨j, f, hj⟩
  obtain ⟨report, hreport⟩ := h j
  rw [hj] at hreport
  exact nomatch EditProgram.ended.inj (EditTask.ready.inj hreport)

/-- At some moment `i` has taken `k` steps, and the other call fewer than
`l`. -/
def Precedes (schedule : List Caller) (i : Caller) (k l : Nat) : Prop :=
  ∃ front, front <+: schedule ∧ k ≤ front.count i ∧ front.count i.other < l

/-- If one call has told the server before the other one reads, all is as if
they had been made one after the other. -/
theorem OnFile.serial (h : OnFile root requests r c) {schedule : List Caller}
    {report : Caller → String}
    (hended : ∀ j,
      ((start c requests).run schedule).task j = .ended (.ok (report j)))
    (hprecedes : Precedes schedule i 5 2) :
    ∃ between, OnFile root requests r between ∧
      Tool.editFile (requests i).file (requests i).edits c =
        (.ok (report i), between) ∧
      Tool.editFile (requests i.other).file (requests i.other).edits between =
        (.ok (report i.other), ((start c requests).run schedule).client) := by
  obtain ⟨front, ⟨rest, rfl⟩, htold, hunread⟩ := hprecedes
  have hok : ¬((start c requests).run front).Failed :=
    not_failed_of_run (not_failed_of_ended fun j => ⟨report j, hended j⟩)
  have hfront := h.run_eq i (by omega) hok
  obtain ⟨seen, hstage⟩ := h.staged hok i
  obtain ⟨updated, summary, -, hdone⟩ := hstage.ended htold
  rw [run_append, run_of_ended hdone, hfront, run_append, ← run_append,
    List.replicate_append_replicate] at hended ⊢
  generalize front.count i = m at hended ⊢
  generalize front.count i.other + rest.count i.other = n at hended ⊢
  have hsolo :
      OnFile root requests r
        ((start c requests).run (List.replicate m i)).client :=
    OnFile.run (s := start c requests) h _
  refine ⟨((start c requests).run (List.replicate m i)).client, hsolo, ?_, ?_⟩
  · have hfirst := perform_run_replicate (start c requests) i m
    rw [← task_run_replicate i.other_ne.symm _ n, hended i] at hfirst
    rw [← EditProgram.perform_editFile]
    exact hfirst.symm
  · have hsecond := perform_run_replicate
      ((start c requests).run (List.replicate m i)) i.other n
    rw [hended i.other, task_run_replicate i.other_ne, h.task_start] at hsecond
    rw [← EditProgram.perform_editFile, hsolo.sameRoot]
    exact hsecond.symm

/-! # Both at once -/

theorem Precedes.of_append {front rest : List Caller} {k l : Nat}
    (h : Precedes front i k l) :
    Precedes (front ++ rest) i k l := by
  obtain ⟨first, hfirst, hk, hl⟩ := h
  exact ⟨first, hfirst.trans (List.prefix_append front rest), hk, hl⟩

theorem precedes_of_count {front : List Caller} {k l : Nat}
    (hk : k ≤ front.count i) (hl : front.count i.other < l) :
    Precedes front i k l :=
  ⟨front, List.prefix_rfl, hk, hl⟩

/-- Where two calls are that both read the file before the server was told of
either. The one that writes last decides what is on the disk, the one that tells
last what the server knows. -/
structure Racing (root : FilePath) (requests : Caller → EditRequest)
    (r : FilePath) (old : String) (front : List Caller) (s : Overlap σ) :
    Prop where
  onFile : OnFile root requests r s.client
  stage : ∀ i, EditStage root (requests i) old (front.count i) (s.task i)
  opened : ∀ i, 1 ≤ front.count i → Opened r s.client
  text : (∀ i, front.count i < 5) →
    ∀ i, s.client.text ((requests i).path root) = .ok old
  written : ∀ i updated summary, LineEdit.apply old (requests i).edits =
    .ok (updated, summary) → 4 ≤ front.count i → ¬Precedes front i 4 4 →
    ∀ j, s.client.disk.readText ((requests j).path root) = .ok updated
  told : ∀ i updated summary, LineEdit.apply old (requests i).edits =
    .ok (updated, summary) → 5 ≤ front.count i → ¬Precedes front i 5 5 →
    ∃ d, s.client.documents.table.find? r = some (.opened d) ∧
    d.content = updated

namespace Racing

variable {old : String} {front : List Caller} {x : Caller}

theorem count_le (front : List Caller) (x i : Caller) :
    front.count i ≤ (front ++ [x]).count i := by
  rw [List.count_append]
  exact Nat.le_add_right _ _

theorem stages (h : Racing root requests r old front s)
    (hstage : EditStage root (requests x) old (front.count x + 1)
      ((s.step x).task x)) (i : Caller) :
    EditStage root (requests i) old ((front ++ [x]).count i)
      ((s.step x).task i) := by
  by_cases hi : i = x
  · subst hi
    rw [Caller.count_snoc_self]
    exact hstage
  · rw [Caller.count_snoc_of_ne hi, step_task_of_ne hi]
    exact h.stage i

theorem of_opening (h : Racing root requests r old front s)
    (hstage : EditStage root (requests x) old (front.count x + 1)
      ((s.step x).task x))
    (hchange : Client.Opening s.client (s.step x).client)
    (hopened : Opened r (s.step x).client) (hwrites : front.count x ≠ 3)
    (htells : front.count x ≠ 4) :
    Racing root requests r old (front ++ [x]) (s.step x) := by
  have hcount (i : Caller) (n : Nat) (hn : front.count x ≠ n)
      (hi : n + 1 ≤ (front ++ [x]).count i) :
      n + 1 ≤ front.count i := by
    by_cases hx : i = x
    · subst hx
      rw [Caller.count_snoc_self] at hi
      omega
    · rwa [Caller.count_snoc_of_ne hx] at hi
  constructor
  · exact h.onFile.step x
  · exact h.stages hstage
  · intro i _
    exact hopened
  · intro hfew i
    rw [hchange.text h.onFile.current]
    exact h.text (fun j => Nat.lt_of_le_of_lt (count_le front x j) (hfew j)) i
  · intro i updated summary happly hi hlast j
    rw [hchange.disk]
    exact h.written i updated summary happly (hcount i 3 hwrites hi)
      (fun hprecedes => hlast hprecedes.of_append) j
  · intro i updated summary happly hi hlast
    obtain ⟨d, hd, hcontent⟩ :=
      h.told i updated summary happly (hcount i 4 htells hi)
      (fun hprecedes => hlast hprecedes.of_append)
    exact ⟨d, hchange.opened hd, hcontent⟩

theorem of_write (h : Racing root requests r old front s)
    (hcount : front.count x = 3) (hok : ¬(s.step x).Failed) :
    Racing root requests r old (front ++ [x]) (s.step x) := by
  have hbefore := h.stage x
  rw [hcount] at hbefore
  obtain ⟨hstage, updated, summary, disk, happly, hwrite, hclient⟩ :=
    hbefore.write_text (step_spec s x) (task_of_not_failed hok x)
  have hafter := h.onFile.step x
  obtain ⟨d, hd⟩ := h.opened x (by omega)
  have hd' : (s.step x).client.documents.table.find? r = some (.opened d) := by
    rw [hclient]
    exact hd
  constructor
  · exact hafter
  · apply h.stages
    rw [hcount]
    exact hstage
  · intro i _
    exact ⟨d, hd'⟩
  · intro hfew i
    have hold :=
      h.text (fun j => Nat.lt_of_le_of_lt (count_le front x j) (hfew j)) i
    rw [Client.text_of_opened (h.onFile.real i) hd] at hold
    rw [Client.text_of_opened (hafter.real i) hd', hold]
  · intro i updated' summary' happly' hi hlast j
    rcases x.eq_or_eq_other i with rfl | rfl
    · obtain ⟨rfl, -⟩ := Prod.mk.inj (Except.ok.inj (happly.symm.trans happly'))
      rw [Disk.readText_congr hafter.current (hafter.real j) (hafter.real i),
        hclient]
      exact Disk.readText_writeText h.onFile.current hwrite
    · rw [Caller.count_snoc_of_ne x.other_ne] at hi
      apply absurd (precedes_of_count hi _).of_append hlast
      rw [Caller.other_other, hcount]
      omega
  · intro i updated' summary' happly' hi hlast
    rcases x.eq_or_eq_other i with rfl | rfl
    · rw [Caller.count_snoc_self] at hi
      omega
    · rw [Caller.count_snoc_of_ne x.other_ne] at hi
      rw [hclient]
      exact h.told x.other updated' summary' happly' hi fun hprecedes =>
        hlast hprecedes.of_append

theorem of_tell (h : Racing root requests r old front s)
    (hcount : front.count x = 4) (hok : ¬(s.step x).Failed) :
    Racing root requests r old (front ++ [x]) (s.step x) := by
  have hbefore := h.stage x
  rw [hcount] at hbefore
  obtain ⟨hstage, updated, summary, version, happly, hchange⟩ :=
    hbefore.change_file (step_spec s x) (task_of_not_failed hok x)
  rcases Client.changeFile_cases ((requests x).path root) updated s.client with
    ⟨q, d, after, hreal, hd, heq, -, -, hdisk, htable, -⟩ |
    ⟨f, after, heq, -, -⟩
  · obtain ⟨-, rfl⟩ := Prod.mk.inj (heq.symm.trans hchange)
    obtain rfl : q = r := Except.ok.inj (hreal.symm.trans (h.onFile.real x))
    have hself := DocumentTable.find?_set_self q
      (.opened { d with version := d.version + 1, content := updated })
      s.client.documents.table
    rw [← htable] at hself
    constructor
    · exact h.onFile.step x
    · apply h.stages
      rw [hcount]
      exact hstage
    · intro i _
      exact ⟨_, hself⟩
    · intro hfew
      have hx := hfew x
      rw [Caller.count_snoc_self] at hx
      omega
    · intro i updated' summary' happly' hi hlast j
      rw [hdisk]
      apply h.written i updated' summary' happly' _ (fun hprecedes =>
        hlast hprecedes.of_append) j
      rcases x.eq_or_eq_other i with rfl | rfl
      · omega
      · rwa [Caller.count_snoc_of_ne x.other_ne] at hi
    · intro i updated' summary' happly' hi hlast
      rcases x.eq_or_eq_other i with rfl | rfl
      · obtain ⟨rfl, -⟩ :=
          Prod.mk.inj (Except.ok.inj (happly.symm.trans happly'))
        exact ⟨_, hself, rfl⟩
      · rw [Caller.count_snoc_of_ne x.other_ne] at hi
        apply absurd (precedes_of_count hi _).of_append hlast
        rw [Caller.other_other, hcount]
        omega
  · exact nomatch (Prod.mk.inj (heq.symm.trans hchange)).1

theorem of_same (h : Racing root requests r old front s)
    (hstage : EditStage root (requests x) old (front.count x + 1)
      ((s.step x).task x))
    (hclient : (s.step x).client = s.client) (hbegun : 1 ≤ front.count x)
    (hwrites : front.count x ≠ 3) (htells : front.count x ≠ 4) :
    Racing root requests r old (front ++ [x]) (s.step x) := by
  refine h.of_opening hstage ?_ ?_ hwrites htells
  · rw [hclient]
    exact Client.Opening.refl s.client
  · rw [hclient]
    exact h.opened x hbegun

theorem not_told_of_unread (hcount : front.count x < 2)
    (hunread : ¬Precedes (front ++ [x]) x.other 5 2) :
    ∀ j, front.count j < 5 := by
  intro j
  rcases x.eq_or_eq_other j with rfl | rfl
  · omega
  · by_contra htold
    apply hunread
    apply Precedes.of_append
    apply precedes_of_count (by omega)
    rw [Caller.other_other]
    exact hcount

theorem step (h : Racing root requests r old front s) (hok : ¬(s.step x).Failed)
    (hunread : ¬Precedes (front ++ [x]) x.other 5 2) :
    Racing root requests r old (front ++ [x]) (s.step x) := by
  have hspec := step_spec s x
  have hfault := task_of_not_failed hok x
  have hbefore := h.stage x
  match hcount : front.count x with
  | 0 =>
      rw [hcount] at hbefore
      obtain ⟨hstage, uri, hopen⟩ := hbefore.open_file hspec hfault
      have hchange := Client.opening_openFile ((requests x).path root) s.client
      obtain ⟨q, d, hreal, hd, -⟩ := Client.opened_of_openFile hopen
      obtain rfl : q = r := Except.ok.inj (hreal.symm.trans (h.onFile.real x))
      rw [hopen] at hchange
      exact h.of_opening (by rw [hcount]; exact hstage) hchange ⟨d, hd⟩
        (by omega) (by omega)
  | 1 =>
      rw [hcount] at hbefore
      obtain ⟨text, hread, hstage, hclient⟩ := hbefore.read_text hspec hfault
      have hfew := not_told_of_unread (by omega) hunread
      obtain rfl : old = text :=
        Except.ok.inj ((h.text hfew x).symm.trans hread)
      exact h.of_same (by rw [hcount]; exact hstage) hclient (by omega)
        (by omega) (by omega)
  | 2 =>
      rw [hcount] at hbefore
      obtain ⟨hstage, hclient⟩ := hbefore.apply_edits hspec hfault
      exact h.of_same (by rw [hcount]; exact hstage) hclient (by omega)
        (by omega) (by omega)
  | 3 =>
      exact h.of_write hcount hok
  | 4 =>
      exact h.of_tell hcount hok
  | n + 5 =>
      rw [hcount] at hbefore
      obtain ⟨htask, hclient⟩ := hbefore.idle (Nat.le_add_left 5 n) hspec
      have hstage := hbefore.later (Nat.le_add_left 5 n)
      rw [← htask, ← hcount] at hstage
      exact h.of_same hstage hclient (by omega) (by omega) (by omega)

theorem start (h : OnFile root requests r c)
    (hold : ∀ i, c.text ((requests i).path root) = .ok old) :
    Racing root requests r old [] (Overlap.start c requests) := by
  constructor
  · exact h
  · intro i
    rw [h.task_start i]
    exact .opening
  · intro i hi
    exact absurd hi (by simp)
  · intro _ i
    exact hold i
  · intro i updated summary _ hi
    exact absurd hi (by simp)
  · intro i updated summary _ hi
    exact absurd hi (by simp)

theorem run (h : OnFile root requests r c)
    (hold : ∀ i, c.text ((requests i).path root) = .ok old)
    {schedule : List Caller}
    (hok : ¬((Overlap.start c requests).run schedule).Failed)
    (hunread : ∀ i, ¬Precedes schedule i 5 2) :
    Racing root requests r old schedule
      ((Overlap.start c requests).run schedule) := by
  induction schedule using List.reverseRecOn with
  | nil =>
      exact start h hold
  | append_singleton front x ih =>
      have hfront := ih (not_failed_of_run hok) fun i hprecedes =>
        hunread i hprecedes.of_append
      rw [run_snoc] at hok ⊢
      exact hfront.step hok (hunread x.other)

end Racing

theorem OnFile.document?_eq (h : OnFile root requests r c) (i j : Caller) :
    c.document? ((requests i).path root) =
      c.document? ((requests j).path root) := by
  simp only [Client.document?, Documents.document?, h.real]

theorem OnFile.text_eq (h : OnFile root requests r c) (i j : Caller) :
    c.text ((requests i).path root) = c.text ((requests j).path root) := by
  rw [Client.text, Client.text, h.document?_eq i j,
    Disk.readText_congr h.current (h.real i) (h.real j)]

theorem OnFile.exists_text (h : OnFile root requests r c)
    {schedule : List Caller}
    (hended : ∀ j, ∃ report,
      ((start c requests).run schedule).task j = .ended (.ok report)) :
    ∃ old, ∀ i, c.text ((requests i).path root) = .ok old := by
  cases schedule with
  | nil =>
      obtain ⟨report, hreport⟩ := hended .first
      have hstage :
          EditStage root (requests .first) "" 0
            ((start c requests).task .first) := by
        rw [h.task_start .first]
        exact .opening
      exact absurd (hstage.five_le hreport) (by omega)
  | cons x rest =>
      have hok : ¬((start c requests).step x).Failed := by
        intro hfailed
        exact not_failed_of_ended hended (hfailed.run rest)
      have hstart : OnFile root requests r (start c requests).client := h
      obtain ⟨uri, hopen, d, hd⟩ := hstart.opened_of_step (h.task_start x) hok
      have hchange :=
        Client.opening_openFile ((requests x).path root)
          (start c requests).client
      rw [hopen] at hchange
      refine ⟨d.content, fun i => ?_⟩
      rw [h.text_eq i x, ← Client.text_of_opened ((hstart.step x).real x) hd]
      exact (hchange.text h.current _).symm

theorem Precedes.asymm {schedule : List Caller} {k : Nat}
    (h : Precedes schedule i k k) :
    ¬Precedes schedule i.other k k := by
  rintro ⟨front', hfront', hk', hl'⟩
  obtain ⟨front, hfront, hk, hl⟩ := h
  rw [Caller.other_other] at hl'
  rcases List.prefix_or_prefix_of_prefix hfront hfront' with hle | hle
  · have hcount := hle.sublist.count_le i
    omega
  · have hcount := hle.sublist.count_le i.other
    omega

/-! # Both succeed -/

theorem not_failed_step (h : ¬s.Failed) {t : EditTask String} {c' : Client σ}
    (hstep : (s.task i).step s.client = (t, c'))
    (ht : ∀ f, t ≠ .ended (.error f)) :
    ¬(s.step i).Failed := by
  rintro ⟨j, f, hj⟩
  by_cases hi : j = i
  · subst hi
    rw [step_task_self, hstep] at hj
    exact ht f hj
  · rw [step_task_of_ne hi] at hj
    exact h ⟨j, f, hj⟩

theorem step_to {t t' : EditTask String} {c c' : Client σ}
    (htask : s.task i = t) (hclient : s.client = c)
    (hstep : t.step c = (t', c')) :
    (s.step i).task i = t' ∧ (s.step i).client = c' := by
  subst htask hclient
  exact Prod.mk.inj ((step_spec s i).symm.trans hstep)

/-- The file can be read under both names, on a connection that works. -/
structure Fit (root : FilePath) (requests : Caller → EditRequest)
    (c : Client σ) : Prop where
  live : c.IsLive
  readable : ∀ j, ∃ text, c.disk.readText ((requests j).path root) = .ok text

namespace Racing

variable {old : String} {front : List Caller} {x : Caller}

theorem exists_step (h : Racing root requests r old front s)
    (hfit : Fit root requests s.client)
    (hopen : front.count x = 0 →
      ∃ uri c', Client.openFile ((requests x).path root) s.client =
      (.ok uri, c') ∧ c'.IsLive)
    (hedits : (requests x).edits.isEmpty = false)
    (happly : ∃ updated summary, LineEdit.apply old (requests x).edits =
      .ok (updated, summary))
    (hunread : ¬Precedes (front ++ [x]) x.other 5 2) :
    ∃ t c', (s.task x).step s.client = (t, c') ∧ (∀ f, t ≠ .ended (.error f)) ∧
      Fit root requests c' := by
  have hcurrent := h.onFile.current
  have hstage := h.stage x
  generalize htask : s.task x = t at hstage
  generalize hcount : front.count x = n at hstage
  cases hstage with
  | opening =>
      obtain ⟨uri, c', heq, hlive⟩ := hopen hcount
      have hchange := Client.opening_openFile ((requests x).path root) s.client
      rw [heq] at hchange
      refine ⟨_, c', EditTask.step_editFile hedits heq, fun f hf => ?_,
        hlive, ?_⟩
      · exact nomatch EditTask.ready.inj hf
      · rw [hchange.disk]
        exact hfit.readable
  | reading =>
      have htext := h.text (not_told_of_unread (by omega) hunread) x
      refine ⟨_, s.client, EditTask.step_readText htext _, fun f hf => ?_, hfit⟩
      exact nomatch EditTask.ready.inj hf
  | reckoning =>
      obtain ⟨updated, summary, happly⟩ := happly
      have hstep :=
        EditTask.step_rewrite ((requests x).path root) (requests x).edits
          old s.client
      rw [happly] at hstep
      refine ⟨_, s.client, hstep, fun f hf => ?_, hfit⟩
      exact nomatch EditTask.ready.inj hf
  | @writing updated summary _ =>
      obtain ⟨text, hread⟩ := hfit.readable x
      obtain ⟨disk, hwrite⟩ := Disk.exists_writeText hread updated
      have hstep := EditTask.step_save hwrite (.ended (.ok summary.text))
      have hclient := (step_to htask rfl hstep).2
      have hafter := h.onFile.step x
      refine ⟨_, _, hstep, fun f hf => ?_, hfit.live, fun j => ⟨updated, ?_⟩⟩
      · exact nomatch hf
      · rw [← hclient, Disk.readText_congr hafter.current (hafter.real j)
          (hafter.real x), hclient]
        exact Disk.readText_writeText hcurrent hwrite
  | @telling updated summary _ =>
      obtain ⟨d, hd⟩ := h.opened x (by omega)
      obtain ⟨c', heq, hlive, -, hdisk, -⟩ :=
        Client.changeFile_of_opened hfit.live (h.onFile.real x) hd updated
      refine ⟨_, c', EditTask.step_written heq _, fun f hf => ?_, hlive, ?_⟩
      · exact nomatch EditProgram.ended.inj (EditTask.ready.inj hf)
      · rw [hdisk]
        exact hfit.readable
  | done hn _ =>
      refine ⟨_, s.client, rfl, fun f hf => ?_, hfit⟩
      exact nomatch EditProgram.ended.inj (EditTask.ready.inj hf)

theorem not_failed (h : OnFile root requests r c)
    (hold : ∀ i, c.text ((requests i).path root) = .ok old)
    (hfit : Fit root requests c)
    (hopen : ∀ i, ∃ uri c',
      Client.openFile ((requests i).path root) c = (.ok uri, c') ∧ c'.IsLive)
    (hedits : ∀ i, (requests i).edits.isEmpty = false)
    (happly : ∀ i, ∃ updated summary, LineEdit.apply old (requests i).edits =
      .ok (updated, summary))
    {schedule : List Caller} (hunread : ∀ i, ¬Precedes schedule i 5 2) :
    ¬((Overlap.start c requests).run schedule).Failed ∧
      Fit root requests ((Overlap.start c requests).run schedule).client := by
  induction schedule using List.reverseRecOn with
  | nil =>
      refine ⟨?_, hfit⟩
      rintro ⟨i, f, hi⟩
      change (Overlap.start c requests).task i = .ended (.error f) at hi
      rw [h.task_start i, EditProgram.editFile, hedits i] at hi
      cases hi
  | append_singleton front x ih =>
      have hunread' : ∀ i, ¬Precedes front i 5 2 :=
        fun i hprecedes => hunread i hprecedes.of_append
      obtain ⟨hok, hfit'⟩ := ih hunread'
      have hrace := run h hold hok hunread'
      rw [run_snoc]
      have hopen' :
          front.count x = 0 → ∃ uri c', Client.openFile ((requests x).path root)
          ((Overlap.start c requests).run front).client = (.ok uri, c') ∧
          c'.IsLive := by
        intro hx
        cases front with
        | nil =>
            exact hopen x
        | cons y front =>
            obtain ⟨d, hd⟩ := hrace.opened y (by simp)
            exact ⟨_, _, Client.openFile_of_opened (hrace.onFile.real x) hd,
              hfit'.live⟩
      obtain ⟨t, c', hstep, ht, hfit''⟩ :=
        hrace.exists_step hfit' hopen' (hedits x) (happly x) (hunread x.other)
      refine ⟨not_failed_step hok hstep ht, ?_⟩
      rw [(step_to rfl rfl hstep).2]
      exact hfit''

end Racing

/-! # Every interleaving -/

abbrev readStep : Nat := 2

abbrev writeStep : Nat := 4

abbrev tellStep : Nat := 5

/-- Each call works on the text from before. The file has the text of the call
that wrote last, its document the text of the call that told last. -/
theorem Racing.outcome {old : String} {schedule : List Caller}
    (h : Racing root requests r old schedule s)
    (hended : ∀ i, ∃ report, s.task i = .ended (.ok report)) :
    ∃ updated : Caller → String,
      (∀ i, ∃ summary, LineEdit.apply old (requests i).edits =
        .ok (updated i, summary)) ∧
      (∀ i, Precedes schedule i writeStep writeStep →
        ∀ j, s.client.disk.readText ((requests j).path root) =
          .ok (updated i.other)) ∧
      ∀ i, Precedes schedule i tellStep tellStep →
        ∀ j, (s.client.document? ((requests j).path root)).map
          OpenDocument.content = some (updated i.other) := by
  have hdone : ∀ i, 5 ≤ schedule.count i := by
    intro i
    obtain ⟨report, hreport⟩ := hended i
    exact (h.stage i).five_le hreport
  have happlied : ∀ i, ∃ updated summary,
      LineEdit.apply old (requests i).edits = .ok (updated, summary) := by
    intro i
    obtain ⟨updated, summary, happly, -⟩ := (h.stage i).ended (hdone i)
    exact ⟨updated, summary, happly⟩
  choose updated summary happly using happlied
  refine ⟨updated, fun i => ⟨summary i, happly i⟩, ?_, ?_⟩
  · intro i hprecedes j
    have hmany := hdone i.other
    exact h.written i.other _ _ (happly i.other) (by omega) hprecedes.asymm j
  · intro i hprecedes j
    obtain ⟨d, hd, hcontent⟩ :=
      h.told i.other _ _ (happly i.other) (hdone i.other) hprecedes.asymm
    simp only [Client.document?, Documents.document?, h.onFile.real j, hd,
      Option.bind_some, DocumentState.document?, Option.map_some, hcontent]

/-- Two calls edit one file and both succeed. If one of them has told the server
before the other one reads, all is as if they had been made in this order, and
the file and its document have the same text. If not, both start from the text
that the file had before: the file has the text of the call that wrote last, and
its document that of the call that told last. -/
theorem overlapping_edits (hcurrent : c.disk.HasCurrent)
    (hsame : ∀ i, c.disk.realPath ((requests i).path c.root) = .ok r)
    {schedule : List Caller} {report : Caller → String}
    (hended : ∀ i, ((start c requests).run schedule).task i =
      .ended (.ok (report i))) :
    let after := ((start c requests).run schedule).client
    (∀ i, Precedes schedule i tellStep readStep →
      ∃ between text,
        Tool.editFile (requests i).file (requests i).edits c =
          (.ok (report i), between) ∧
        Tool.editFile (requests i.other).file (requests i.other).edits between =
          (.ok (report i.other), after) ∧
        ∀ j, after.disk.readText ((requests j).path c.root) = .ok text ∧
          (after.document? ((requests j).path c.root)).map
            OpenDocument.content = some text) ∧
    ((∀ i, ¬Precedes schedule i tellStep readStep) →
      ∃ old, (∀ i, c.text ((requests i).path c.root) = .ok old) ∧
        ∃ updated : Caller → String,
          (∀ i, ∃ summary, LineEdit.apply old (requests i).edits =
            .ok (updated i, summary)) ∧
          (∀ i, Precedes schedule i writeStep writeStep →
            ∀ j, after.disk.readText ((requests j).path c.root) =
              .ok (updated i.other)) ∧
          ∀ i, Precedes schedule i tellStep tellStep →
            ∀ j, (after.document? ((requests j).path c.root)).map
              OpenDocument.content = some (updated i.other)) := by
  intro after
  have h : OnFile c.root requests r c := ⟨rfl, hcurrent, hsame⟩
  have hafter : OnFile c.root requests r after :=
    OnFile.run (s := start c requests) h schedule
  constructor
  · intro i hprecedes
    obtain ⟨between, hbetween, hfirst, hsecond⟩ := h.serial hended hprecedes
    obtain ⟨text, hread, htold⟩ :=
      Tool.text_of_editFile hbetween.current hsecond
    rw [hbetween.sameRoot] at hread htold
    refine ⟨between, text, hfirst, hsecond, fun j => ⟨?_, ?_⟩⟩
    · rw [Disk.readText_congr hafter.current (hafter.real j)
        (hafter.real i.other)]
      exact hread
    · rw [hafter.document?_eq j i.other]
      exact htold
  · intro hunread
    have hexists : ∀ i, ∃ report, ((start c requests).run schedule).task i =
        .ended (.ok report) :=
      fun i => ⟨report i, hended i⟩
    obtain ⟨old, hold⟩ := h.exists_text hexists
    have hrace := Racing.run h hold (not_failed_of_ended hexists) hunread
    exact ⟨old, hold, hrace.outcome hexists⟩

/-! # An edit that is lost -/

instance (schedule : List Caller) (i : Caller) (k l : Nat) :
    Decidable (Precedes schedule i k l) :=
  decidable_of_iff (∃ front ∈ schedule.inits, k ≤ front.count i ∧
    front.count i.other < l) (by simp only [List.mem_inits, Precedes])

def lineEach : Caller → EditRequest
  | .first => ⟨"a", [⟨1, 1, "A"⟩]⟩
  | .second => ⟨"a", [⟨2, 2, "B"⟩]⟩

/-- All of the second call happens between the last two steps of the first
one. -/
def nested : List Caller :=
  List.replicate 4 .first ++ List.replicate 5 .second ++ [.first]

theorem unread_nested : ∀ i, ¬Precedes nested i tellStep readStep := by
  intro i
  cases i <;> decide

theorem path_lineEach (i : Caller) :
    (lineEach i).path Client.twoLines.root = Client.smallFile := by
  cases i <;> decide

theorem onFile_twoLines :
    OnFile Client.twoLines.root lineEach Client.smallFile Client.twoLines := by
  constructor
  · rfl
  · exact Client.twoLines_current
  · intro i
    rw [path_lineEach]
    exact Client.twoLines_realPath

theorem text_twoLines (i : Caller) :
    Client.twoLines.text ((lineEach i).path Client.twoLines.root) =
      .ok "1\n2\n" := by
  rw [path_lineEach, Client.text_of_unopened Client.twoLines_realPath rfl,
    Client.twoLines_readText]

theorem not_failed_nested :
    ¬((start Client.twoLines lineEach).run nested).Failed := by
  obtain ⟨uri, d, opened, hopen, hlive, -⟩ := Client.openFile_twoLines
  refine (Racing.not_failed onFile_twoLines text_twoLines
    ⟨⟨rfl, rfl⟩, ?_⟩ ?_ ?_ ?_ unread_nested).1
  · intro i
    rw [path_lineEach]
    exact ⟨"1\n2\n", Client.twoLines_readText⟩
  · intro i
    rw [path_lineEach]
    exact ⟨_, opened, hopen, hlive⟩
  · intro i
    cases i <;> rfl
  · intro i
    cases i with
    | first =>
        exact ⟨"A\n2\n", ⟨1, 1, 1⟩, rfl⟩
    | second =>
        exact ⟨"1\nB\n", ⟨1, 1, 1⟩, rfl⟩

theorem racing_nested :
    Racing Client.twoLines.root lineEach Client.smallFile "1\n2\n" nested
      ((start Client.twoLines lineEach).run nested) :=
  Racing.run onFile_twoLines text_twoLines not_failed_nested unread_nested

theorem ended_nested (i : Caller) : ∃ report,
    ((start Client.twoLines lineEach).run nested).task i =
      .ended (.ok report) := by
  obtain ⟨updated, summary, -, hended⟩ :=
    (racing_nested.stage i).ended (by cases i <;> decide)
  exact ⟨summary.text, hended⟩

/-- Each of the two calls works on the text from before. -/
theorem overlapping_edits_nested :
    ∃ updated : Caller → String,
      (∀ i, ∃ summary, LineEdit.apply "1\n2\n" (lineEach i).edits =
        .ok (updated i, summary)) ∧
      ((start Client.twoLines lineEach).run nested).client.disk.readText
        Client.smallFile = .ok (updated .second) ∧
      (((start Client.twoLines lineEach).run nested).client.document?
        Client.smallFile).map OpenDocument.content = some (updated .first) := by
  choose report hended using ended_nested
  obtain ⟨old, hold, updated, happly, hwritten, htold⟩ :=
    (overlapping_edits onFile_twoLines.current onFile_twoLines.real hended).2
      unread_nested
  obtain rfl : old = "1\n2\n" :=
    Except.ok.inj ((hold .first).symm.trans (text_twoLines .first))
  have hread := hwritten .first (by decide) .first
  have hdocument := htold .second (by decide) .first
  rw [path_lineEach] at hread hdocument
  exact ⟨updated, happly, hread, hdocument⟩

/-- Both calls succeed, but the file has lost the edit of the first call, and
its document that of the second one. -/
theorem nested_edits_lost :
    (∀ i, ∃ report, ((start Client.twoLines lineEach).run nested).task i =
      .ended (.ok report)) ∧
      ((start Client.twoLines lineEach).run nested).client.disk.readText
        Client.smallFile = .ok "1\nB\n" ∧
      (((start Client.twoLines lineEach).run nested).client.document?
        Client.smallFile).map OpenDocument.content = some "A\n2\n" := by
  obtain ⟨updated, happly, hwritten, htold⟩ :=
    racing_nested.outcome ended_nested
  have hfirst : LineEdit.apply "1\n2\n" (lineEach .first).edits =
      .ok ("A\n2\n", ⟨1, 1, 1⟩) := by
    rfl
  have hsecond : LineEdit.apply "1\n2\n" (lineEach .second).edits =
      .ok ("1\nB\n", ⟨1, 1, 1⟩) := by
    rfl
  obtain ⟨summary, happly₁⟩ := happly .first
  obtain ⟨summary', happly₂⟩ := happly .second
  obtain ⟨heq₁, -⟩ := Prod.mk.inj (Except.ok.inj (hfirst.symm.trans happly₁))
  obtain ⟨heq₂, -⟩ := Prod.mk.inj (Except.ok.inj (hsecond.symm.trans happly₂))
  have hread := hwritten .first (by decide) .first
  have hdocument := htold .second (by decide) .first
  rw [path_lineEach] at hread hdocument
  refine ⟨ended_nested, ?_, ?_⟩
  · rw [hread, heq₂]
    rfl
  · rw [hdocument, heq₁]
    rfl

end Overlap
end CodeIntel
