import CodeIntel.Proofs.Connection.Slots
import CodeIntel.Proofs.Frame.Reading
import Mathlib.Data.List.Basic
import Mathlib.Data.List.Induction

/-!
# Frames written piece by piece

Whoever sends a message takes the writer and hands over the bytes of its frame,
as many at a time as the other end takes. In between others run, but nobody else
has the writer. A sender may be given up wherever it is: if it has the writer
then, the writer is free again, and the bytes that were handed over stay.

The bytes are thus the pieces of those who had the writer, one behind the other.
They are whole frames and the beginning of one that is being written as long as
nobody is given up inside its frame. Somebody who is leaves a torn frame behind,
and the next frame follows in the middle of it.
-/

namespace CodeIntel

/-- How far somebody has come who sends a message. -/
inductive SendStage where
  | queued
  /-- It has the writer, and has handed over some bytes of its frame. -/
  | writing (count : Nat)
  | sent
  /-- It had the writer, and was given up or failed after some bytes of its
  frame. -/
  | gone (count : Nat)
  /-- It never had the writer. -/
  | left

structure Sender where
  message : Message
  stage : SendStage := .queued

namespace Sender

def count (s : Sender) : Nat :=
  match s.stage with
  | .queued | .left => 0
  | .writing count | .gone count => count
  | .sent => s.message.frame.length

def piece (s : Sender) : List UInt8 :=
  s.message.frame.take s.count

def hadWriter (s : Sender) : Bool :=
  match s.stage with
  | .sent | .gone _ => true
  | _ => false

def delivered? (s : Sender) : Option Message :=
  match s.stage with
  | .sent => some s.message
  | _ => none

/-- Whether a sender has gone inside its frame. -/
def Torn (s : Sender) : Prop :=
  ∃ count, s.stage = .gone count ∧ 0 < count ∧ count < s.message.frame.length

end Sender

/-- A connection with those who send on it, and the bytes that the other end has
taken. -/
structure Writers where
  connection : Connection := {}
  bytes : List UInt8 := []
  /-- The sender that has the writer. -/
  writer : Option Nat := none
  senders : List Sender := []

inductive WriteStep where
  | send (m : Message)
  | acquire (i : Nat)
  /-- The other end takes at most so many further bytes. -/
  | push (i count : Nat)
  | finish (i : Nat)
  | drop (i : Nat)
  | breakPipe
  | close

namespace Writers

def move (w : Writers) (i : Nat) (m : Message) (stage : SendStage) : Writers :=
  { w with senders := w.senders.set i ⟨m, stage⟩ }

def letGo (w : Writers) (i : Nat) (m : Message) (stage : SendStage)
    (c : Connection) : Writers :=
  { w.move i m stage with writer := none, connection := c }

/-- A sender takes the writer if it is free, and looks once more whether the
connection is open. -/
def acquire (w : Writers) (i : Nat) : Writers :=
  match w.writer, w.senders[i]? with
  | none, some ⟨m, .queued⟩ =>
    match w.connection.checkOpen with
    | .ok () => { w.move i m (.writing 0) with writer := some i }
    | .error _ => w.move i m .left
  | _, _ => w

def push (w : Writers) (i count : Nat) : Writers :=
  match w.senders[i]? with
  | some ⟨m, .writing n⟩ =>
    if w.connection.broken then w.letGo i m (.gone n) w.connection.close
    else
      { w.move i m (.writing (min (n + count) m.frame.length)) with
        bytes := w.bytes ++ (m.frame.drop n).take count }
  | _ => w

def finish (w : Writers) (i : Nat) : Writers :=
  match w.senders[i]? with
  | some ⟨m, .writing n⟩ =>
    if n = m.frame.length then
      match w.connection.put? m with
      | some c => w.letGo i m .sent c
      | none => w.letGo i m (.gone n) w.connection.close
    else w
  | _ => w

def drop (w : Writers) (i : Nat) : Writers :=
  match w.senders[i]? with
  | some ⟨m, .queued⟩ => w.move i m .left
  | some ⟨m, .writing n⟩ => w.letGo i m (.gone n) w.connection
  | _ => w

def step (w : Writers) : WriteStep → Writers
  | .send m => { w with senders := w.senders ++ [⟨m, .queued⟩] }
  | .acquire i => w.acquire i
  | .push i count => w.push i count
  | .finish i => w.finish i
  | .drop i => w.drop i
  | .breakPipe => { w with connection := w.connection.breakPipe }
  | .close => { w with connection := w.connection.close }

def run (w : Writers) (steps : List WriteStep) : Writers :=
  steps.foldl step w

theorem run_snoc (w : Writers) (steps : List WriteStep) (st : WriteStep) :
    w.run (steps ++ [st]) = (w.run steps).step st :=
  List.foldl_append

/-- Whole frames have been written, and the beginning of one that is being
written. -/
def InSync (w : Writers) : Prop :=
  ∃ (whole : List Message) (rest : List UInt8),
    w.bytes = whole.flatMap Message.frame ++ rest ∧ match w.writer with
    | none => rest = []
    | some i => ∃ s, w.senders[i]? = some s ∧ rest <+: s.message.frame

/-- A sender that nobody disturbs does what a write does at once. -/
theorem run_undisturbed (w : Writers) (hfree : w.writer = none)
    (hopen : w.connection.closed = false) (hworks : w.connection.broken = false)
    (m : Message) :
    w.run [.send m, .acquire w.senders.length,
      .push w.senders.length m.frame.length,
        .finish w.senders.length] =
      { w with
        connection := (w.connection.write m).2
        bytes := w.bytes ++ m.frame
        senders := w.senders ++ [⟨m, .sent⟩] } := by
  simp [run, step, acquire, push, finish, move, letGo, Connection.write,
    Connection.checkOpen, Connection.put?, hfree, hopen, hworks]

/-! # What a step does -/

/-- What a step does to the senders, to the writer and to the bytes. -/
inductive Strokes (w w' : Writers) : Prop where
  | joins (m : Message)
      (hsenders : w'.senders = w.senders ++ [⟨m, .queued⟩])
      (hwriter : w'.writer = w.writer)
      (hbytes : w'.bytes = w.bytes)
      (hwire : w'.connection.wire = w.connection.wire)
  | leaves (i : Nat) (m : Message) (hi : w.senders[i]? = some ⟨m, .queued⟩)
      (hsenders : w'.senders = w.senders.set i ⟨m, .left⟩)
      (hwriter : w'.writer = w.writer)
      (hbytes : w'.bytes = w.bytes)
      (hwire : w'.connection.wire = w.connection.wire)
  | takes (i : Nat) (m : Message) (hi : w.senders[i]? = some ⟨m, .queued⟩)
      (hfree : w.writer = none)
      (hsenders : w'.senders = w.senders.set i ⟨m, .writing 0⟩)
      (hwriter : w'.writer = some i)
      (hbytes : w'.bytes = w.bytes)
      (hwire : w'.connection.wire = w.connection.wire)
  | pushes (i : Nat) (m : Message) (n count : Nat)
      (hi : w.senders[i]? = some ⟨m, .writing n⟩)
      (hsenders : w'.senders =
      w.senders.set i ⟨m, .writing (min (n + count) m.frame.length)⟩)
      (hwriter : w'.writer = w.writer)
      (hbytes : w'.bytes = w.bytes ++ (m.frame.drop n).take count)
      (hwire : w'.connection.wire = w.connection.wire)
  | sends (i : Nat) (m : Message)
      (hi : w.senders[i]? = some ⟨m, .writing m.frame.length⟩)
      (hsenders : w'.senders = w.senders.set i ⟨m, .sent⟩)
      (hwriter : w'.writer = none)
      (hbytes : w'.bytes = w.bytes)
      (hwire : w'.connection.wire = w.connection.wire ++ [m])
  | goes (i : Nat) (m : Message) (n : Nat)
      (hi : w.senders[i]? = some ⟨m, .writing n⟩)
      (hsenders : w'.senders = w.senders.set i ⟨m, .gone n⟩)
      (hwriter : w'.writer = none)
      (hbytes : w'.bytes = w.bytes)
      (hwire : w'.connection.wire = w.connection.wire)
  | rests (hsenders : w'.senders = w.senders)
      (hwriter : w'.writer = w.writer)
      (hbytes : w'.bytes = w.bytes)
      (hwire : w'.connection.wire = w.connection.wire)

theorem strokes_acquire (w : Writers) (i : Nat) : Strokes w (w.acquire i) := by
  unfold acquire
  split
  · next m hwriter hi =>
      split
      · exact .takes i m hi hwriter rfl rfl rfl rfl
      · exact .leaves i m hi rfl rfl rfl rfl
  · exact .rests rfl rfl rfl rfl

theorem strokes_push (w : Writers) (i count : Nat) :
    Strokes w (w.push i count) := by
  unfold push
  split
  · next m n hi =>
      split
      · exact .goes i m n hi rfl rfl rfl (Connection.close_wire _)
      · exact .pushes i m n count hi rfl rfl rfl rfl
  · exact .rests rfl rfl rfl rfl

theorem strokes_finish (w : Writers) (i : Nat) : Strokes w (w.finish i) := by
  unfold finish
  split
  · next m n hi =>
      split
      · next hwhole =>
          subst hwhole
          split
          · next c hput =>
              refine .sends i m hi rfl rfl rfl ?_
              show c.wire = _
              rw [Connection.put?_eq_some hput]
          · exact .goes i m _ hi rfl rfl rfl (Connection.close_wire _)
      · exact .rests rfl rfl rfl rfl
  · exact .rests rfl rfl rfl rfl

theorem strokes_drop (w : Writers) (i : Nat) : Strokes w (w.drop i) := by
  unfold drop
  split
  · next m hi =>
      exact .leaves i m hi rfl rfl rfl rfl
  · next m n hi =>
      exact .goes i m n hi rfl rfl rfl rfl
  · exact .rests rfl rfl rfl rfl

theorem strokes_step (w : Writers) (st : WriteStep) :
    Strokes w (w.step st) := by
  cases st with
  | send m =>
      exact .joins m rfl rfl rfl rfl
  | acquire i =>
      exact strokes_acquire w i
  | push i count =>
      exact strokes_push w i count
  | finish i =>
      exact strokes_finish w i
  | drop i =>
      exact strokes_drop w i
  | breakPipe =>
      exact .rests rfl rfl rfl rfl
  | close =>
      exact .rests rfl rfl rfl (Connection.close_wire _)

/-! # One sender among others -/

section Place

variable {α : Type} {l : List α} {i : Nat} {a b : α} {p : α → Bool}

theorem getElem?_set_of_some (hi : l[i]? = some a) (b : α) (j : Nat) :
    (l.set i b)[j]? = if j = i then some b else l[j]? := by
  by_cases heq : j = i
  · subst heq
    rw [if_pos rfl, List.getElem?_set_self (List.getElem?_eq_some_iff.mp hi).1]
  · rw [if_neg heq, List.getElem?_set_ne (Ne.symm heq)]

theorem split_at (hi : l[i]? = some a) :
    ∃ before after, l = before ++ a :: after ∧
    ∀ b, l.set i b = before ++ b :: after := by
  obtain ⟨hlt, rfl⟩ := List.getElem?_eq_some_iff.mp hi
  refine ⟨l.take i, l.drop (i + 1), ?_, fun b => ?_⟩
  · rw [List.getElem_cons_drop, List.take_append_drop]
  · rw [List.set_eq_take_append_cons_drop, if_pos hlt]

theorem filter_set_of_neither (hi : l[i]? = some a) (ha : p a = false)
    (hb : p b = false) :
    (l.set i b).filter p = l.filter p := by
  obtain ⟨before, after, heq, hset⟩ := split_at hi
  rw [hset, heq]
  simp [ha, hb]

theorem perm_filter_set (hi : l[i]? = some a) (ha : p a = false)
    (hb : p b = true) {past : List α} (h : past.Perm (l.filter p)) :
    (past ++ [b]).Perm ((l.set i b).filter p) := by
  obtain ⟨before, after, heq, hset⟩ := split_at hi
  have hbefore : l.filter p = before.filter p ++ after.filter p := by
    simp [heq, ha]
  have hafter :
      (l.set i b).filter p = before.filter p ++ b :: after.filter p := by
    simp [hset, hb]
  rw [hafter]
  rw [hbefore] at h
  exact ((List.perm_append_singleton b past).trans (h.cons b)).trans
    List.perm_middle.symm

end Place

def current (w : Writers) : List UInt8 :=
  match w.writer.bind fun i => w.senders[i]? with
  | some s => s.piece
  | none => []

theorem current_of_free {w : Writers} (h : w.writer = none) :
    w.current = [] := by
  rw [current, h]
  rfl

theorem current_of_held {w : Writers} {i : Nat} {s : Sender}
    (h : w.writer = some i) (hi : w.senders[i]? = some s) :
    w.current = s.piece := by
  rw [current, h, Option.bind_some, hi]

/-- What holds between two steps. Those who had the writer are listed in the
order in which they had it, and nobody writes without it. -/
structure Kept (w : Writers) (past : List Sender) : Prop where
  listed : past.Perm (w.senders.filter Sender.hadWriter)
  bytes : w.bytes = past.flatMap Sender.piece ++ w.current
  wire : w.connection.wire = past.filterMap Sender.delivered?
  writer : ∀ i, w.writer = some i ↔ ∃ m n, w.senders[i]? = some ⟨m, .writing n⟩

theorem kept_nil : Kept {} [] where
  listed := .refl _
  bytes := rfl
  wire := rfl
  writer i := by
    constructor
    · exact fun h => nomatch h
    · rintro ⟨m, n, h⟩
      exact nomatch h

section Keeping

variable {w w' : Writers} {past : List Sender} {i : Nat} {m : Message} {n : Nat}

theorem Kept.current_eq (h : w.Kept past) (hwriter : w'.writer = w.writer)
    (hholder : ∀ j s, w.writer = some j → w.senders[j]? = some s →
      w'.senders[j]? = some s) :
    w'.current = w.current := by
  cases hfree : w.writer with
  | none =>
      rw [current_of_free hfree, current_of_free (hwriter.trans hfree)]
  | some j =>
      obtain ⟨m', n', hj⟩ := (h.writer j).mp hfree
      rw [current_of_held hfree hj,
        current_of_held (hwriter.trans hfree) (hholder j _ hfree hj)]

theorem Kept.joins (h : w.Kept past)
    (hsenders : w'.senders = w.senders ++ [⟨m, .queued⟩])
    (hwriter : w'.writer = w.writer) (hbytes : w'.bytes = w.bytes)
    (hwire : w'.connection.wire = w.connection.wire) : w'.Kept past := by
  have hold {j : Nat} {s : Sender} (hj : w.senders[j]? = some s) :
      w'.senders[j]? = some s := by
    rw [hsenders, List.getElem?_append_left (List.getElem?_eq_some_iff.mp hj).1,
      hj]
  constructor
  · simpa [hsenders, Sender.hadWriter] using h.listed
  · rw [hbytes, h.bytes, h.current_eq hwriter fun j s _ hj => hold hj]
  · rw [hwire, h.wire]
  · intro j
    rw [hwriter, h.writer]
    constructor
    · rintro ⟨m', n', hj⟩
      exact ⟨m', n', hold hj⟩
    · rintro ⟨m', n', hj⟩
      rw [hsenders, List.getElem?_append] at hj
      split at hj
      · exact ⟨m', n', hj⟩
      · rw [List.getElem?_singleton] at hj
        split at hj
        · cases hj
        · cases hj

/-- Somebody who waits for the writer gives up. -/
theorem Kept.leaves (h : w.Kept past) (hi : w.senders[i]? = some ⟨m, .queued⟩)
    (hsenders : w'.senders = w.senders.set i ⟨m, .left⟩)
    (hwriter : w'.writer = w.writer) (hbytes : w'.bytes = w.bytes)
    (hwire : w'.connection.wire = w.connection.wire) :
    w'.Kept past := by
  have hset (j : Nat) :
      w'.senders[j]? = if j = i then some ⟨m, .left⟩ else w.senders[j]? := by
    rw [hsenders, getElem?_set_of_some hi]
  constructor
  · rw [hsenders, filter_set_of_neither hi rfl rfl]
    exact h.listed
  · rw [hbytes, h.bytes, h.current_eq hwriter]
    intro j s hj hs
    obtain ⟨m', n', hwriting⟩ := (h.writer j).mp hj
    rw [hset, if_neg, hs]
    rintro rfl
    exact nomatch hi.symm.trans hwriting
  · rw [hwire, h.wire]
  · intro j
    rw [hwriter, h.writer, hset]
    by_cases heq : j = i
    · subst heq
      simp [hi]
    · rw [if_neg heq]

theorem Kept.takes (h : w.Kept past) (hi : w.senders[i]? = some ⟨m, .queued⟩)
    (hfree : w.writer = none)
    (hsenders : w'.senders = w.senders.set i ⟨m, .writing 0⟩)
    (hwriter : w'.writer = some i) (hbytes : w'.bytes = w.bytes)
    (hwire : w'.connection.wire = w.connection.wire) : w'.Kept past := by
  have hset (j : Nat) :
      w'.senders[j]? = if j = i then some ⟨m, .writing 0⟩
        else w.senders[j]? := by
    rw [hsenders, getElem?_set_of_some hi]
  constructor
  · rw [hsenders, filter_set_of_neither hi rfl rfl]
    exact h.listed
  · have hself : w'.senders[i]? = some ⟨m, .writing 0⟩ := by
      rw [hset, if_pos rfl]
    rw [hbytes, h.bytes, current_of_free hfree, current_of_held hwriter hself]
    simp [Sender.piece, Sender.count]
  · rw [hwire, h.wire]
  · intro j
    rw [hwriter, hset]
    by_cases heq : j = i
    · subst heq
      simp
    · have hnot : ¬ ∃ m' n', w.senders[j]? = some ⟨m', .writing n'⟩ := by
        rw [← h.writer, hfree]
        exact nofun
      simp only [if_neg heq, iff_false_right hnot, Option.some.injEq]
      exact Ne.symm heq

theorem Kept.pushes {count : Nat} (h : w.Kept past)
    (hi : w.senders[i]? = some ⟨m, .writing n⟩)
    (hsenders : w'.senders =
      w.senders.set i ⟨m, .writing (min (n + count) m.frame.length)⟩)
    (hwriter : w'.writer = w.writer)
    (hbytes : w'.bytes = w.bytes ++ (m.frame.drop n).take count)
    (hwire : w'.connection.wire = w.connection.wire) : w'.Kept past := by
  have hset (j : Nat) : w'.senders[j]? =
      if j = i then some ⟨m, .writing (min (n + count) m.frame.length)⟩
      else w.senders[j]? := by
    rw [hsenders, getElem?_set_of_some hi]
  have hholds : w.writer = some i := (h.writer i).mpr ⟨m, n, hi⟩
  constructor
  · rw [hsenders, filter_set_of_neither hi rfl rfl]
    exact h.listed
  · have hself : w'.senders[i]? =
        some ⟨m, .writing (min (n + count) m.frame.length)⟩ := by
      rw [hset, if_pos rfl]
    have hpiece : m.frame.take n ++ (m.frame.drop n).take count =
        m.frame.take (min (n + count) m.frame.length) := by
      rw [← List.take_add, List.take_eq_take_min]
    rw [hbytes, h.bytes, current_of_held hholds hi,
      current_of_held (hwriter.trans hholds) hself, List.append_assoc]
    exact congrArg _ hpiece
  · rw [hwire, h.wire]
  · intro j
    rw [hwriter, h.writer, hset]
    by_cases heq : j = i
    · subst heq
      simp [hi]
    · rw [if_neg heq]

theorem Kept.ends {s : Sender} (h : w.Kept past)
    (hi : w.senders[i]? = some ⟨m, .writing n⟩) (hhad : s.hadWriter = true)
    (hpiece : s.piece = m.frame.take n)
    (hsenders : w'.senders = w.senders.set i s) (hwriter : w'.writer = none)
    (hbytes : w'.bytes = w.bytes)
    (hwire : w'.connection.wire = w.connection.wire ++ s.delivered?.toList) :
    w'.Kept (past ++ [s]) := by
  have hset (j : Nat) :
      w'.senders[j]? = if j = i then some s else w.senders[j]? := by
    rw [hsenders, getElem?_set_of_some hi]
  have hholds : w.writer = some i := (h.writer i).mpr ⟨m, n, hi⟩
  constructor
  · rw [hsenders]
    exact perm_filter_set hi rfl hhad h.listed
  · rw [hbytes, h.bytes, current_of_held hholds hi, current_of_free hwriter,
      List.append_nil, List.flatMap_append, List.flatMap_singleton, hpiece]
    rfl
  · rw [hwire, h.wire, List.filterMap_append]
    cases hdelivered : s.delivered? <;> simp [hdelivered]
  · intro j
    rw [hwriter, hset]
    refine iff_of_false nofun ?_
    rintro ⟨m', n', hj⟩
    by_cases heq : j = i
    · rw [if_pos heq] at hj
      obtain rfl := Option.some.inj hj
      exact nomatch hhad
    -- nobody else was writing
    · rw [if_neg heq] at hj
      have hholds' := (h.writer j).mpr ⟨m', n', hj⟩
      exact heq (Option.some.inj (hholds'.symm.trans hholds))

theorem Kept.step (h : w.Kept past) (hstrokes : Strokes w w') :
    ∃ past', w'.Kept past' := by
  cases hstrokes with
  | joins m hsenders hwriter hbytes hwire =>
      exact ⟨past, h.joins hsenders hwriter hbytes hwire⟩
  | leaves i m hi hsenders hwriter hbytes hwire =>
      exact ⟨past, h.leaves hi hsenders hwriter hbytes hwire⟩
  | takes i m hi hfree hsenders hwriter hbytes hwire =>
      exact ⟨past, h.takes hi hfree hsenders hwriter hbytes hwire⟩
  | pushes i m n count hi hsenders hwriter hbytes hwire =>
      exact ⟨past, h.pushes hi hsenders hwriter hbytes hwire⟩
  | sends i m hi hsenders hwriter hbytes hwire =>
      exact ⟨_, h.ends hi rfl rfl hsenders hwriter hbytes hwire⟩
  | goes i m n hi hsenders hwriter hbytes hwire =>
      exact ⟨_, h.ends hi rfl rfl hsenders hwriter hbytes
        (by rw [hwire]; simp [Sender.delivered?])⟩
  | rests hsenders hwriter hbytes hwire =>
      refine ⟨past, ?_⟩
      constructor
      · rw [hsenders]
        exact h.listed
      · rw [hbytes, h.bytes, h.current_eq hwriter fun j s _ hj => hsenders ▸ hj]
      · rw [hwire, h.wire]
      · rw [hsenders, hwriter]
        exact h.writer

end Keeping

theorem kept_run (steps : List WriteStep) :
    ∃ past, (run {} steps).Kept past := by
  induction steps using List.reverseRecOn with
  | nil =>
      exact ⟨[], kept_nil⟩
  | append_singleton steps st ih =>
      obtain ⟨past, h⟩ := ih
      rw [run_snoc]
      exact h.step (strokes_step _ st)

/-! # Whole frames -/

theorem piece_of_not_torn {s : Sender} (hhad : s.hadWriter = true)
    (h : ¬ s.Torn) :
    s.piece = (if s.count = 0 then [] else [s.message]).flatMap
      Message.frame := by
  by_cases hzero : s.count = 0
  · rw [if_pos hzero, Sender.piece, hzero]
    rfl
  · have hwhole : s.message.frame.length ≤ s.count := by
      obtain ⟨m, stage⟩ := s
      cases stage with
      | sent =>
          exact Nat.le_refl _
      | gone count =>
          by_contra hless
          exact h ⟨count, rfl, Nat.pos_of_ne_zero hzero, Nat.lt_of_not_le hless⟩
      | queued | writing | left =>
          exact nomatch hhad
    rw [if_neg hzero, Sender.piece, List.take_of_length_le hwhole]
    simp

theorem Kept.inSync {w : Writers} {past : List Sender} (h : w.Kept past)
    (hwhole : ∀ s ∈ w.senders, ¬ s.Torn) : w.InSync := by
  refine ⟨past.flatMap fun s => if s.count = 0 then [] else [s.message],
    w.current, ?_, ?_⟩
  · rw [h.bytes, List.flatMap_assoc]
    congr 1
    apply List.flatMap_congr
    intro s hs
    obtain ⟨hmem, hhad⟩ := List.mem_filter.mp (h.listed.mem_iff.mp hs)
    exact piece_of_not_torn hhad (hwhole s hmem)
  · cases hwriter : w.writer with
    | none =>
        exact current_of_free hwriter
    | some i =>
        obtain ⟨m, n, hi⟩ := (h.writer i).mp hwriter
        refine ⟨_, hi, ?_⟩
        rw [current_of_held hwriter hi]
        exact List.take_prefix _ _

/-- The bytes on the wire are what those who had the writer handed over, in the
order in which they had it, and the messages that count as sent are those whose
frames are whole. The bytes are whole frames and the beginning of one that is
being written unless somebody went inside its frame. -/
theorem bytes_are_pieces (steps : List WriteStep) :
    let w := run {} steps
    (∃ past : List Sender, past.Perm (w.senders.filter Sender.hadWriter) ∧
      w.bytes = past.flatMap Sender.piece ++ w.current ∧
      w.connection.wire = past.filterMap Sender.delivered?) ∧
    ((∀ s ∈ w.senders, ¬ s.Torn) → w.InSync) := by
  obtain ⟨past, h⟩ := kept_run steps
  exact ⟨⟨past, h.listed, h.bytes, h.wire⟩, h.inSync⟩

/-! # Torn frames -/

theorem frame_eq_cons (m : Message) : ∃ more, m.frame = 67 :: 111 :: more := by
  have hcons (length : Nat) :
      ∃ text, Frame.lengthLine length = 'C' :: 'o' :: text := ⟨_, rfl⟩
  obtain ⟨text, htext⟩ := hcons (Utf8.encode m.render).length
  have hframe : m.frame = Frame.encodeBody (Utf8.encode m.render) := rfl
  rw [hframe, Frame.encodeBody_eq, htext, Utf8.encode_ofList_cons,
    Utf8.encode_ofList_cons, Frame.encodeChar_of_ascii (by decide),
    Frame.encodeChar_of_ascii (by decide)]
  exact ⟨_, rfl⟩

/-- The sender of a message is given up after the first byte of its frame, and
then another message is sent as a whole. -/
def cutShort (m m' : Message) : List WriteStep :=
  [.send m, .send m', .acquire 0, .push 0 1, .drop 0, .acquire 1,
    .push 1 m'.frame.length, .finish 1]

theorem run_cutShort (m m' : Message) :
    (run {} (cutShort m m')).bytes = m.frame.take 1 ++ m'.frame ∧
      (run {} (cutShort m m')).writer = none ∧
      (run {} (cutShort m m')).connection.wire = [m'] := by
  simp [cutShort, run, step, acquire, push, finish, drop, move, letGo,
    Connection.checkOpen, Connection.put?]

theorem not_inSync_cutShort (m m' : Message) :
    ¬ (run {} (cutShort m m')).InSync := by
  obtain ⟨hbytes, hfree, -⟩ := run_cutShort m m'
  rintro ⟨whole, rest, heq, hrest⟩
  rw [hfree] at hrest
  obtain rfl : rest = [] := hrest
  obtain ⟨more, hm⟩ := frame_eq_cons m
  obtain ⟨more', hm'⟩ := frame_eq_cons m'
  rw [hbytes, hm, hm', List.append_nil] at heq
  -- all frames begin with the same two bytes, and here the second byte is the
  -- first one of a frame
  cases whole with
  | nil =>
      cases heq
  | cons first others =>
      obtain ⟨more₁, hfirst⟩ := frame_eq_cons first
      rw [List.flatMap_cons, hfirst] at heq
      cases heq

def firstEcho : Message :=
  .request 1 "mockls/echo" (.str "first")

def secondEcho : Message :=
  .request 2 "mockls/echo" (.str "second")

def isFrame : Frame.ReadResult → Bool
  | .frame _ => true
  | _ => false

theorem second_echo_lost :
    ¬ (run {} (cutShort firstEcho secondEcho)).InSync ∧
    (Frame.readAll ⟨(run {} (cutShort firstEcho secondEcho)).bytes, none⟩).any
      isFrame = false ∧
    (Frame.readAll ⟨secondEcho.frame, none⟩).any isFrame = true := by
  refine ⟨not_inSync_cutShort _ _, ?_, ?_⟩
  · decide +kernel
  · decide +kernel

end Writers
end CodeIntel
