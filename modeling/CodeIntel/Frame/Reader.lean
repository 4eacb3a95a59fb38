import CodeIntel.Fault
import CodeIntel.Json.Reader
import CodeIntel.Text.Blank

/-!
# Reading frames

A frame is a block of header lines, closed by a blank line, and a body of
exactly as many bytes as the header `Content-Length` says. A frame that is wrong
in itself is consumed and dropped, so that the next one is read from its own
first byte.
-/

namespace CodeIntel
namespace Frame

/-- The bytes still to be read, and what is found behind them: the end of the
stream or a failure. -/
structure Stream where
  bytes : List UInt8
  failure : Option String
deriving Repr

def endFault : Option String → TransportFault
  | none => .cutShort
  | some reason => .io reason

inductive ReadResult where
  | frame (value : Json)
  | fault (f : TransportFault)
  /-- The stream ended between two frames. -/
  | done
deriving Repr

/-! # Header lines -/

def newline : UInt8 := 0x0A

/-- A line as it is cut from the stream: its bytes, the line feed included if
there is one. -/
structure Cut where
  line : List UInt8
  complete : Bool
  rest : List UInt8

def cutLine (bytes : List UInt8) : Cut :=
  let line := bytes.takeWhile (· ≠ newline)
  match bytes.dropWhile (· ≠ newline) with
  | [] => ⟨line, false, []⟩
  | b :: rest => ⟨line ++ [b], true, rest⟩

/-- What the header lines read so far have said: the last length, and the first
problem. -/
structure Headers where
  length : Option Nat := none
  problem : Option Problem := none
deriving DecidableEq, Repr

namespace Headers

def note (h : Headers) (p : Problem) : Headers :=
  { h with problem := h.problem.or (some p) }

end Headers

def splitHeader (line : List Char) : Option (List Char × List Char) :=
  match line.dropWhile (· ≠ ':') with
  | _ :: value => some (line.takeWhile (· ≠ ':'), value)
  | [] => none

def lengthName : List Char := "content-length".toList

/-- Takes one header line, already trimmed, into account. -/
def readHeader (h : Headers) (line : List Char) : Headers :=
  match splitHeader line with
  | none => h
  | some (name, value) =>
    if (Text.trim name).map Char.toLower = lengthName then
      let value := Text.trim value
      match Numeral.read Numeral.max64 value with
      | .ok n => { h with length := some n }
      | .error fault =>
        { h with length := none }.note
          (.invalidLength (String.ofList value) fault)
    else h

inductive Line where
  | blank
  | header (text : List Char)
  | notText (fault : Utf8.Fault)

def classifyLine (line : List UInt8) : Line :=
  match Utf8.decode? line with
  | some text =>
    let text := Text.trim text.toList
    if text.isEmpty then .blank else .header text
  | none => .notText ((Utf8.fault? line).getD (.incomplete 0))

inductive HeaderResult where
  | block (h : Headers)
  | fault (f : TransportFault)
  | done

theorem cutLine_append (bytes : List UInt8) :
    (cutLine bytes).line ++ (cutLine bytes).rest = bytes := by
  have h := List.takeWhile_append_dropWhile (p := (· ≠ newline)) (l := bytes)
  simp only [cutLine]
  split
  · next e =>
      rw [e] at h
      simpa using h
  · next e =>
      rw [e] at h
      simpa using h

theorem cutLine_line_ne_nil {bytes : List UInt8} (h : bytes ≠ []) :
    (cutLine bytes).line ≠ [] := by
  have happ := cutLine_append bytes
  unfold cutLine at *
  cases hd : bytes.dropWhile (· ≠ newline) with
  | nil =>
      simp only [hd, List.append_nil] at happ ⊢
      rw [happ]
      exact h
  | cons b rest =>
      simp

/-- Why the line that was cut last cannot be used: reading failed before its
end. -/
def brokenOff? (complete : Bool) (failure : Option String) : Option String :=
  if complete then none else failure

/-- Reads header lines up to the blank line that closes the block; `started`
tells whether bytes of the block have been read already. -/
def readHeaders (h : Headers) (started : Bool) (s : Stream) :
    HeaderResult × Stream :=
  if _ : s.bytes = [] then
    match s.failure, started with
    | some reason, _ => (.fault (.io reason), s)
    | none, true => (.fault .cutShort, s)
    | none, false => (.done, s)
  else
    let cut := cutLine s.bytes
    match brokenOff? cut.complete s.failure with
    | some reason => (.fault (.io reason), ⟨[], s.failure⟩)
    | none =>
      match classifyLine cut.line with
      | .blank => (.block h, ⟨cut.rest, s.failure⟩)
      | .header text =>
        readHeaders (readHeader h text) true ⟨cut.rest, s.failure⟩
      | .notText fault =>
        readHeaders (h.note (.headerNotUtf8 fault)) true ⟨cut.rest, s.failure⟩
termination_by s.bytes.length
decreasing_by
  all_goals
    have happ := congrArg List.length (cutLine_append s.bytes)
    have hpos := List.length_pos_iff.mpr (cutLine_line_ne_nil ‹¬s.bytes = []›)
    simp only [List.length_append] at happ
    show (cutLine s.bytes).rest.length < s.bytes.length
    omega

/-! # Bodies -/

def dropExactly? : Nat → List α → Option (List α)
  | 0, xs => some xs
  | _ + 1, [] => none
  | n + 1, _ :: xs => dropExactly? n xs

def skipBody (s : Stream) (length : Nat) (problem : Problem) :
    ReadResult × Stream :=
  match dropExactly? length s.bytes with
  | some rest => (.fault (.malformedFrame problem), ⟨rest, s.failure⟩)
  | none => (.fault (endFault s.failure), ⟨[], s.failure⟩)

def bodyResult (text : Option String) : ReadResult :=
  match text.bind Json.parse? with
  | some value => .frame value
  | none => .fault (.malformedFrame .invalidBody)

def decodeBody (body : List UInt8) : ReadResult :=
  bodyResult (Utf8.decode? body)

def readBody (s : Stream) (length : Nat) : ReadResult × Stream :=
  match dropExactly? length s.bytes with
  | some rest => (decodeBody (s.bytes.take length), ⟨rest, s.failure⟩)
  | none => (.fault (endFault s.failure), ⟨[], s.failure⟩)

def read (s : Stream) : ReadResult × Stream :=
  match readHeaders {} false s with
  | (.done, s) => (.done, s)
  | (.fault f, s) => (.fault f, s)
  | (.block ⟨some length, none⟩, s) =>
    if length ≤ maxBytes then readBody s length
    else skipBody s length (.tooLong length)
  | (.block ⟨some length, some problem⟩, s) => skipBody s length problem
  | (.block ⟨none, problem⟩, s) =>
    (.fault (.malformedFrame (problem.getD .missingLength)), s)

def ReadResult.continues : ReadResult → Bool
  | .frame _ => true
  | .fault f => !f.isFatal
  | .done => false

/-- Reads until the end or a fatal fault; `fuel` bounds the results. -/
def readAllWith : Nat → Stream → List ReadResult
  | 0, _ => []
  | fuel + 1, s =>
    let (r, s) := read s
    if r.continues then r :: readAllWith fuel s else [r]

/-- All results of a stream. Every result but the last takes at least one
byte. -/
def readAll (s : Stream) : List ReadResult :=
  readAllWith (s.bytes.length + 1) s

def Stream.ofBytes (bytes : List UInt8) : Stream :=
  ⟨bytes, none⟩

end Frame
end CodeIntel
