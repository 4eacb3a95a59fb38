import CodeIntel.Proofs.Frame.Progress
import CodeIntel.Proofs.Frame.Reading
import Mathlib.Data.List.Induction

/-!
# Frames and their neighbours

A frame that is wrong in itself is dropped as a whole: whatever its header lines
say, as long as the last length among them can be read, the reader takes its
header block and its body and nothing else. So what follows is read as if the
frame had not been there.
-/

namespace CodeIntel
namespace Frame

/-! # Header lines -/

/-- What a header line says, unless it is not text. Its line feed is not part of
it. -/
def lineText? (line : List UInt8) : Option (List Char) :=
  (Utf8.decode? (line ++ [newline])).map fun text => Text.trim text.toList

def lengthValue? (text : List Char) : Option (List Char) :=
  (splitHeader text).bind fun (name, value) =>
    if (Text.trim name).map Char.toLower = lengthName then
      some (Text.trim value) else none

def lengthField? (line : List UInt8) : Option (List Char) :=
  (lineText? line).bind lengthValue?

def lengthOf? (value : List Char) : Option Nat :=
  (Numeral.read Numeral.max64 value).toOption

/-- A line that is text, and whose length can be read if it tells one. -/
def IsSoundLine (line : List UInt8) : Prop :=
  (lineText? line).isSome ∧ ∀ value, lengthField? line = some value →
    (lengthOf? value).isSome

/-- A header block: lines that are not blank, and the blank line that closes
them. -/
structure HeaderBlock where
  lines : List (List UInt8)
  closing : List UInt8
  lines_unbroken : ∀ line ∈ lines, newline ∉ line
  lines_not_blank : ∀ line ∈ lines, lineText? line ≠ some []
  closing_unbroken : newline ∉ closing
  closing_blank : lineText? closing = some []

namespace HeaderBlock

def bytes (b : HeaderBlock) : List UInt8 :=
  b.lines.flatMap (· ++ [newline]) ++ b.closing ++ [newline]

def length? (b : HeaderBlock) : Option Nat :=
  (b.lines.filterMap lengthField?).getLast?.bind lengthOf?

end HeaderBlock

/-! # Taking note of lines -/

def Headers.after (h : Headers) (line : List UInt8) : Headers :=
  match classifyLine (line ++ [newline]) with
  | .blank => h
  | .header text => readHeader h text
  | .notText fault => h.note (.headerNotUtf8 fault)

theorem classifyLine_of_lineText? {line : List UInt8} {text : List Char}
    (h : lineText? line = some text) :
    classifyLine (line ++ [newline]) =
      if text.isEmpty then .blank else .header text := by
  obtain ⟨whole, hwhole, rfl⟩ := Option.map_eq_some_iff.mp h
  simp only [classifyLine, hwhole]

theorem classifyLine_of_not_text {line : List UInt8}
    (h : lineText? line = none) :
    ∃ fault, classifyLine (line ++ [newline]) = .notText fault := by
  have hwhole : Utf8.decode? (line ++ [newline]) = none :=
    Option.map_eq_none_iff.mp h
  simp only [classifyLine, hwhole]
  exact ⟨_, rfl⟩

theorem classifyLine_ne_blank_of_lineText? {line : List UInt8}
    (h : lineText? line ≠ some []) :
    classifyLine (line ++ [newline]) ≠ .blank := by
  cases htext : lineText? line with
  | none =>
      obtain ⟨fault, hclass⟩ := classifyLine_of_not_text htext
      rw [hclass]
      exact fun hblank => nomatch hblank
  | some text =>
      have hne : text.isEmpty = false := by
        rw [List.isEmpty_eq_false_iff]
        rintro rfl
        exact h htext
      rw [classifyLine_of_lineText? htext, hne]
      exact fun hblank => nomatch hblank

theorem readHeader_eq (h : Headers) (text : List Char) :
    readHeader h text =
      match lengthValue? text with
      | none => h
      | some value =>
        match Numeral.read Numeral.max64 value with
        | .ok n => { h with length := some n }
        | .error fault =>
          { h with length := none }.note
            (.invalidLength (String.ofList value) fault) := by
  cases hsplit : splitHeader text with
  | none =>
      rw [readHeader, lengthValue?, hsplit]
      rfl
  | some header =>
      obtain ⟨name, value⟩ := header
      by_cases hname : (Text.trim name).map Char.toLower = lengthName
      · have hvalue : lengthValue? text = some (Text.trim value) := by
          rw [lengthValue?, hsplit]
          exact if_pos hname
        rw [readHeader, hsplit, hvalue]
        exact if_pos hname
      · have hvalue : lengthValue? text = none := by
          rw [lengthValue?, hsplit]
          exact if_neg hname
        rw [readHeader, hsplit, hvalue]
        exact if_neg hname

theorem note_problem_ne_none (h : Headers) (p : Problem) :
    (h.note p).problem ≠ none := by
  cases hp : h.problem <;> simp [Headers.note, hp]

theorem after_length (h : Headers) (line : List UInt8) :
    (h.after line).length = match lengthField? line with
      | none => h.length
      | some value => lengthOf? value := by
  unfold Headers.after lengthField?
  cases htext : lineText? line with
  | none =>
      obtain ⟨fault, hclass⟩ := classifyLine_of_not_text htext
      rw [hclass]
      rfl
  | some text =>
      rw [classifyLine_of_lineText? htext, Option.bind_some]
      cases text with
      | nil =>
          rfl
      | cons c text =>
          simp only [List.isEmpty_cons, Bool.false_eq_true, if_false,
            readHeader_eq]
          cases lengthValue? (c :: text) with
          | none =>
              rfl
          | some value =>
              simp only [lengthOf?]
              cases Numeral.read Numeral.max64 value <;> rfl

theorem after_problem (h : Headers) (line : List UInt8) :
    (h.after line).problem = none ↔ h.problem = none ∧ IsSoundLine line := by
  unfold Headers.after IsSoundLine lengthField?
  cases htext : lineText? line with
  | none =>
      obtain ⟨fault, hclass⟩ := classifyLine_of_not_text htext
      simp [hclass, note_problem_ne_none]
  | some text =>
      rw [classifyLine_of_lineText? htext, Option.bind_some]
      cases text with
      | nil =>
          simp [lengthValue?, splitHeader]
      | cons c text =>
          simp only [List.isEmpty_cons, Bool.false_eq_true, if_false,
            readHeader_eq]
          cases lengthValue? (c :: text) with
          | none =>
              simp
          | some value =>
              unfold lengthOf?
              cases hread : Numeral.read Numeral.max64 value with
              | ok n =>
                  simp [hread, Except.toOption]
              | error fault =>
                  simp [hread, note_problem_ne_none, Except.toOption]

theorem foldl_after_length (lines : List (List UInt8)) :
    (lines.foldl Headers.after {}).length =
      (lines.filterMap lengthField?).getLast?.bind lengthOf? := by
  induction lines using List.reverseRecOn with
  | nil =>
      rfl
  | append_singleton lines line ih =>
      rw [List.foldl_append, List.foldl_cons, List.foldl_nil, after_length,
        List.filterMap_append]
      cases hfield : lengthField? line with
      | none =>
          simp [hfield, ih]
      | some value =>
          simp [hfield]

theorem foldl_after_problem (lines : List (List UInt8)) (h : Headers) :
    (lines.foldl Headers.after h).problem = none ↔
      h.problem = none ∧ ∀ line ∈ lines, IsSoundLine line := by
  induction lines generalizing h with
  | nil =>
      simp
  | cons line rest ih =>
      rw [List.foldl_cons, ih, after_problem, List.forall_mem_cons, and_assoc]

/-! # Reading a block -/

theorem readHeaders_lines {lines : List (List UInt8)}
    (hunbroken : ∀ line ∈ lines, newline ∉ line)
    (hblank : ∀ line ∈ lines, lineText? line ≠ some []) {closing : List UInt8}
    (hclosing : newline ∉ closing) (hclosed : lineText? closing = some [])
    (rest : List UInt8) (h : Headers) (started : Bool)
    (failure : Option String) :
    readHeaders h started
        ⟨lines.flatMap (· ++ [newline]) ++ (closing ++ newline :: rest),
          failure⟩ =
      (.block (lines.foldl Headers.after h), ⟨rest, failure⟩) := by
  induction lines generalizing h started with
  | nil =>
      have hblank : classifyLine (closing ++ [newline]) = .blank :=
        classifyLine_of_lineText? hclosed
      rw [List.flatMap_nil, List.nil_append, readHeaders_line hclosing, hblank]
      rfl
  | cons line lines ih =>
      have hline := hunbroken line List.mem_cons_self
      have hnext := ih (fun l hl => hunbroken l (List.mem_cons_of_mem _ hl))
        (fun l hl => hblank l (List.mem_cons_of_mem _ hl)) (h.after line) true
      have hbytes (more : List UInt8) :
          (line :: lines).flatMap (· ++ [newline]) ++ more =
            line ++ newline :: (lines.flatMap (· ++ [newline]) ++ more) := by
        simp
      rw [hbytes, readHeaders_line hline, List.foldl_cons, ← hnext]
      unfold Headers.after
      cases hclass : classifyLine (line ++ [newline]) with
      | blank =>
          exact absurd hclass
            (classifyLine_ne_blank_of_lineText?
              (hblank line List.mem_cons_self))
      | header text =>
          rfl
      | notText fault =>
          rfl

theorem HeaderBlock.readHeaders_bytes (b : HeaderBlock) (rest : List UInt8)
    (failure : Option String) :
    readHeaders {} false ⟨b.bytes ++ rest, failure⟩ =
      (.block (b.lines.foldl Headers.after {}), ⟨rest, failure⟩) := by
  have hbytes : b.bytes ++ rest =
      b.lines.flatMap (· ++ [newline]) ++ (b.closing ++ newline :: rest) := by
    simp [HeaderBlock.bytes]
  rw [hbytes]
  exact readHeaders_lines b.lines_unbroken b.lines_not_blank b.closing_unbroken
    b.closing_blank rest {} false failure

/-! # Reading a frame -/

theorem skipBody_append (body rest : List UInt8) (failure : Option String)
    (p : Problem) :
    skipBody ⟨body ++ rest, failure⟩ body.length p =
      (.fault (.malformedFrame p), ⟨rest, failure⟩) := by
  have hlength : body.length ≤ (body ++ rest).length := by
    rw [List.length_append]
    exact Nat.le_add_right _ _
  simp only [skipBody, Buffer.dropExactly?_eq, if_pos hlength, List.drop_left]

def bodyValue? (body : List UInt8) : Option Json :=
  (Utf8.decode? body).bind Json.parse?

theorem decodeBody_eq_match (body : List UInt8) :
    decodeBody body = match bodyValue? body with
      | some v => .frame v
      | none => .fault (.malformedFrame .invalidBody) := rfl

/-- The one result of a frame, with `h` for what its header lines say. -/
def frameResult (h : Headers) (body : List UInt8) : ReadResult :=
  match h.problem with
  | some p => .fault (.malformedFrame p)
  | none =>
    if body.length ≤ maxBytes then decodeBody body
    else .fault (.malformedFrame (.tooLong body.length))

/-- A frame is consumed to the end of its body and no further, whether it is
sound or not. -/
theorem read_block (b : HeaderBlock) {body : List UInt8}
    (hlength : b.length? = some body.length) (rest : List UInt8)
    (failure : Option String) :
    read ⟨b.bytes ++ (body ++ rest), failure⟩ =
      (frameResult (b.lines.foldl Headers.after {}) body, ⟨rest, failure⟩) := by
  have hheaders := b.readHeaders_bytes (body ++ rest) failure
  have hsaid : (b.lines.foldl Headers.after {}).length = some body.length :=
    (foldl_after_length b.lines).trans hlength
  generalize b.lines.foldl Headers.after {} = h at hheaders hsaid
  obtain ⟨said, problem⟩ := h
  obtain rfl : said = some body.length := hsaid
  cases problem with
  | some p =>
      simp only [read, hheaders, frameResult, skipBody_append]
  | none =>
      simp only [read, hheaders, frameResult, skipBody_append, readBody_append]
      split
      · rfl
      · rfl

/-! # Reading the whole stream -/

theorem continues_frameResult (h : Headers) (body : List UInt8) :
    (frameResult h body).continues = true := by
  unfold frameResult
  split
  · rfl
  · split
    · rw [decodeBody_eq_match]
      split <;> rfl
    · rfl

theorem frameResult_eq_frame_iff {h : Headers} {body : List UInt8} {v : Json} :
    frameResult h body = .frame v ↔
      h.problem = none ∧ body.length ≤ maxBytes ∧ bodyValue? body = some v := by
  unfold frameResult
  cases h.problem with
  | some p =>
      simp
  | none =>
      by_cases hsize : body.length ≤ maxBytes
      · simp only [decodeBody_eq_match, hsize, if_true, true_and]
        cases bodyValue? body <;> simp
      · simp [hsize]

theorem frameResult_cases (h : Headers) (body : List UInt8) :
    (∃ v, frameResult h body = .frame v) ∨
    ∃ p, frameResult h body = .fault (.malformedFrame p) := by
  unfold frameResult
  split
  · exact Or.inr ⟨_, rfl⟩
  · split
    · rw [decodeBody_eq_match]
      split
      · exact Or.inl ⟨_, rfl⟩
      · exact Or.inr ⟨_, rfl⟩
    · exact Or.inr ⟨_, rfl⟩

/-- A header block whose last length can be read, a body of that length and
anything behind it are read as one result and what is read of the rest alone.
The result is the value of the body if all lines are text, all lengths can be
read, the body is not too long and it is JSON; otherwise it is a malformed
frame. -/
theorem frame_spares_neighbours (b : HeaderBlock) {body : List UInt8}
    (hlength : b.length? = some body.length) (rest : List UInt8)
    (failure : Option String) :
    ∃ r, readAll ⟨b.bytes ++ (body ++ rest), failure⟩ =
      r :: readAll ⟨rest, failure⟩ ∧ (∀ v, r = .frame v ↔
        (∀ line ∈ b.lines, IsSoundLine line) ∧ body.length ≤ maxBytes ∧
        bodyValue? body = some v) ∧
      ((∀ v, r ≠ .frame v) → ∃ p, r = .fault (.malformedFrame p) ∧
        (TransportFault.malformedFrame p).isFatal = false) := by
  have hread := read_block b hlength rest failure
  refine ⟨frameResult (b.lines.foldl Headers.after {}) body, ?_, ?_, ?_⟩
  · rw [readAll_step, hread, if_pos (continues_frameResult _ _)]
  · intro v
    rw [frameResult_eq_frame_iff, foldl_after_problem]
    simp only [true_and]
  · intro hnone
    rcases frameResult_cases (b.lines.foldl Headers.after {}) body with
      ⟨v, hv⟩ | ⟨p, hp⟩
    · exact absurd hv (hnone v)
    · exact ⟨p, hp, rfl⟩

/-- A block with a line that is not text, a length that cannot be read and one
that can. -/
def faultyBlock : HeaderBlock where
  lines :=
    [[0xFF], Utf8.encode "Content-Length: two",
      Utf8.encode "content-length:2\x0d"]
  closing := [13]
  lines_unbroken := by decide
  lines_not_blank := by decide
  closing_unbroken := by decide
  closing_blank := by decide

/-- The faulty block and its body are dropped, and the frame behind them is
read. -/
theorem faulty_frame_spares_next :
    faultyBlock.length? = some (Utf8.encode "{}").length ∧
      ∃ p,
        readAll ⟨faultyBlock.bytes ++ (Utf8.encode "{}" ++ encodeText "[]"),
          none⟩ =
        .fault (.malformedFrame p) :: readAll ⟨encodeText "[]", none⟩ := by
  have hlength : faultyBlock.length? = some (Utf8.encode "{}").length := by
    decide
  obtain ⟨r, hread, hframe, hfault⟩ :=
    frame_spares_neighbours faultyBlock hlength (encodeText "[]") none
  have hnone : ∀ v, r ≠ .frame v := by
    intro v hv
    have hsound := ((hframe v).mp hv).1 [0xFF] (by decide)
    exact absurd hsound.1 (by decide)
  obtain ⟨p, rfl, -⟩ := hfault hnone
  exact ⟨hlength, p, hread⟩

end Frame
end CodeIntel
