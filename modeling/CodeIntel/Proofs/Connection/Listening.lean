import CodeIntel.Proofs.Connection.Slots
import CodeIntel.Proofs.Frame.Progress
import Mathlib.Data.List.Chain
import Mathlib.Data.List.Forall2

/-!
# Listening until the end

A connection listens: it reads one frame after the other, and handles each
before it reads the next. Each call of the reader goes on where the one before
it has stopped, and takes at least one byte if there is another call behind it.
So there are at most as many calls as bytes, and one for the end.
-/

namespace CodeIntel

/-! # Calls of the reader -/

namespace Frame

/-- One call of the reader: the stream before it, what it returned, and what it
left of the stream. -/
structure Call where
  before : Stream
  result : ReadResult
  after : Stream

def callAt (s : Stream) : Call :=
  ⟨s, (read s).1, (read s).2⟩

structure Call.Takes (call : Call) (taken : List UInt8) : Prop where
  bytes : call.before.bytes = taken ++ call.after.bytes
  frame : ∀ value, call.result = .frame value → taken ≠ []
  malformed : ∀ p, call.result = .fault (.malformedFrame p) → taken ≠ []
  /-- The clean end is reported only behind the last byte. -/
  done : call.result = .done → taken = [] ∧ call.after.bytes = []

theorem exists_takes (s : Stream) : ∃ taken, (callAt s).Takes taken := by
  cases read_rest_suffix s with
  | intro taken hbytes =>
      have hprogress (hgoes : (read s).1.continues = true) : taken ≠ [] := by
        rintro rfl
        have hlt := read_rest_lt hgoes
        rw [← hbytes] at hlt
        exact Nat.lt_irrefl _ hlt
      refine ⟨taken, hbytes.symm, ?_, ?_, ?_⟩
      · intro value hframe
        exact hprogress (continues_iff.mpr (.inl ⟨value, hframe⟩))
      · intro p hmalformed
        exact hprogress (continues_iff.mpr (.inr ⟨p, hmalformed⟩))
      · intro hdone
        cases read_done hdone with
        | intro hnil hsame =>
            rw [hsame, hnil, List.append_nil] at hbytes
            exact ⟨hbytes, (congrArg Stream.bytes hsame).trans hnil⟩

/-! # The loop -/

variable {τ : Type} {hear : τ → ReadResult → τ}

/-- A whole run of the loop that reads until the end of the stream or until a
fatal fault, with all its calls. What each call returns is handled before the
next one. -/
inductive Loop (hear : τ → ReadResult → τ) :
    τ → Stream → List Call → τ → Prop where
  | last {t : τ} {s : Stream} : (read s).1.continues = false →
      Loop hear t s [callAt s] (hear t (read s).1)
  | next {t last : τ} {s : Stream} {calls : List Call} :
      (read s).1.continues = true →
      Loop hear (hear t (read s).1) (read s).2 calls last →
      Loop hear t s (callAt s :: calls) last

namespace Loop

variable {t last : τ} {s : Stream} {calls : List Call}

/-- Every run of the loop ends. -/
theorem exists_run (hear : τ → ReadResult → τ) (t : τ) (s : Stream) :
    ∃ calls last, Loop hear t s calls last := by
  induction hlength :
    s.bytes.length using Nat.strong_induction_on generalizing t s with
  | _ length ih =>
      cases hgoes : (read s).1.continues with
      | false =>
          exact ⟨_, _, .last hgoes⟩
      | true =>
          have hlt := hlength ▸ read_rest_lt hgoes
          rcases ih _ hlt (hear t (read s).1) (read s).2 rfl with
            ⟨calls, last, hrest⟩
          exact ⟨_, _, .next hgoes hrest⟩

theorem unique {calls' : List Call} {last' : τ} (h : Loop hear t s calls last)
    (h' : Loop hear t s calls' last') : calls' = calls ∧ last' = last := by
  induction h generalizing calls' with
  | last hstops =>
      cases h' with
      | last _ =>
          exact ⟨rfl, rfl⟩
      | next hgoes _ =>
          exact absurd (hstops.symm.trans hgoes) Bool.false_ne_true
  | next hgoes _ ih =>
      cases h' with
      | last hstops =>
          exact absurd (hstops.symm.trans hgoes) Bool.false_ne_true
      | next _ hrest =>
          rcases ih hrest with ⟨rfl, rfl⟩
          exact ⟨rfl, rfl⟩

theorem head? (h : Loop hear t s calls last) :
    calls.head?.map Call.before = some s := by
  cases h with
  | last _ =>
      rfl
  | next _ _ =>
      rfl

theorem length_le (h : Loop hear t s calls last) :
    calls.length ≤ s.bytes.length + 1 := by
  induction h with
  | last _ =>
      exact Nat.le_add_left 1 _
  | next hgoes _ ih =>
      exact Nat.succ_le_succ (Nat.le_trans ih (read_rest_lt hgoes))

theorem isChain (h : Loop hear t s calls last) :
    calls.IsChain fun call next => next.before = call.after := by
  induction h with
  | last _ =>
      exact List.isChain_singleton _
  | next _ hrest ih =>
      refine List.isChain_cons.mpr ⟨?_, ih⟩
      intro next hnext
      have hhead := hrest.head?
      rw [Option.mem_def.mp hnext] at hhead
      exact Option.some.inj hhead

theorem exists_segments (h : Loop hear t s calls last) : ∃ segments rest,
    List.Forall₂ Call.Takes calls segments ∧
    s.bytes = segments.flatten ++ rest := by
  induction h with
  | @last t s _ =>
      rcases exists_takes s with ⟨taken, htaken⟩
      exact ⟨[taken], (read s).2.bytes, .cons htaken .nil, by
        rw [List.flatten_singleton]
        exact htaken.bytes⟩
  | @next t last s calls _ _ ih =>
      rcases exists_takes s with ⟨taken, htaken⟩
      rcases ih with ⟨segments, rest, hsegments, hbytes⟩
      refine ⟨taken :: segments, rest, .cons htaken hsegments, ?_⟩
      rw [List.flatten_cons, List.append_assoc, ← hbytes]
      exact htaken.bytes

theorem readAll (h : Loop hear t s calls last) :
    calls.map Call.result = Frame.readAll s ∧
    last = (Frame.readAll s).foldl hear t := by
  induction h with
  | last hstops =>
      rw [readAll_step, hstops]
      exact ⟨rfl, rfl⟩
  | next hgoes _ ih =>
      rw [readAll_step, hgoes, if_pos rfl, List.map_cons, List.foldl_cons, ih.1]
      exact ⟨rfl, ih.2⟩

end Loop
end Frame

/-! # Connections -/

namespace Connection

def hear (c : Connection) : Frame.ReadResult → Connection
  | .frame value => c.dispatch value
  | .fault _ | .done => c

theorem readFrames_eq (c : Connection) (results : List Frame.ReadResult) :
    c.readFrames results = (results.foldl hear c).close := by
  rw [readFrames]
  congr 2
  funext c r
  cases r <;> rfl

theorem readStream_of_loop {c last : Connection} {s : Frame.Stream}
    {calls : List Frame.Call} (h : Frame.Loop hear c s calls last) :
    c.readStream s = last.close := by
  rw [readStream, readFrames_eq, h.readAll.2]

/-- Reading any stream comes to an end. Each call of the reader goes on where
the one before has stopped, takes the bytes between the two off the stream, at
least one for a frame or for a frame that was wrong in itself, and reports the
clean end only behind the last byte. There is at most one call more than there
are bytes, and behind the last call the connection is closed. -/
theorem listening_ends (c : Connection) (s : Frame.Stream) : ∃ calls last,
    Frame.Loop hear c s calls last ∧
    (∀ calls' last', Frame.Loop hear c s calls' last' → calls' = calls ∧
      last' = last) ∧
    calls.head?.map Frame.Call.before = some s ∧
    (calls.IsChain fun call next => next.before = call.after) ∧
    (∃ segments rest, List.Forall₂ Frame.Call.Takes calls segments ∧
      s.bytes = segments.flatten ++ rest) ∧
    calls.length ≤ s.bytes.length + 1 ∧
    c.readStream s = last.close ∧ (c.readStream s).closed = true := by
  rcases Frame.Loop.exists_run hear c s with ⟨calls, last, hloop⟩
  have hstream := readStream_of_loop hloop
  have hclosed : (c.readStream s).closed = true := by
    rw [hstream, close_closed]
  exact ⟨calls, last, hloop, fun _ _ => hloop.unique, hloop.head?,
    hloop.isChain, hloop.exists_segments, hloop.length_le, hstream, hclosed⟩

end Connection
end CodeIntel
