import CodeIntel.Frame.Reader

/-!
# Reading frames from a buffer

A buffer holds its bytes in one piece and is read by positions, so a body that
is skipped is never taken apart. The main statement is that this makes no
difference: what a buffer yields is what its unread bytes yield.
-/

namespace CodeIntel
namespace Frame

/-- Bytes of which those from `position` on are still to be read, and what is
found behind them. -/
structure Buffer where
  bytes : ByteArray
  position : Nat := 0
  failure : Option String := none

/-! # Positions -/

def bytesFrom (bytes : ByteArray) (i : Nat) : List UInt8 :=
  bytes.data.toList.drop i

def slice (bytes : ByteArray) (i j : Nat) : List UInt8 :=
  (bytes.extract i j).data.toList

theorem bytesFrom_of_lt {bytes : ByteArray} {i : Nat} (h : i < bytes.size) :
    bytesFrom bytes i = bytes[i] :: bytesFrom bytes (i + 1) := by
  simp only [bytesFrom]
  rw [List.drop_eq_getElem_cons (by simpa using h)]
  simp [ByteArray.getElem_eq_getElem_data]

theorem bytesFrom_of_le {bytes : ByteArray} {i : Nat} (h : bytes.size ≤ i) :
    bytesFrom bytes i = [] := by
  simpa [bytesFrom] using h

theorem length_bytesFrom (bytes : ByteArray) (i : Nat) :
    (bytesFrom bytes i).length = bytes.size - i := by
  simp [bytesFrom]

theorem slice_eq_take (bytes : ByteArray) (i j : Nat) :
    slice bytes i j = (bytesFrom bytes i).take (j - i) := by
  simp [slice, bytesFrom, List.extract]

theorem drop_bytesFrom (bytes : ByteArray) (i n : Nat) :
    (bytesFrom bytes i).drop n = bytesFrom bytes (i + n) := by
  simp [bytesFrom]

/-- The first position from `i` on whose byte is not skipped by `skips`, or the
end. -/
def positionAfter (skips : UInt8 → Bool) (bytes : ByteArray) (i : Nat) : Nat :=
  if h : i < bytes.size then
    if skips bytes[i] then positionAfter skips bytes (i + 1) else i
  else i
termination_by bytes.size - i

theorem le_positionAfter (skips : UInt8 → Bool) (bytes : ByteArray) (i : Nat) :
    i ≤ positionAfter skips bytes i := by
  fun_induction positionAfter skips bytes i with
  | case1 i _ _ ih =>
      omega
  | case2 | case3 =>
      omega

theorem dropWhile_bytesFrom (skips : UInt8 → Bool) (bytes : ByteArray)
    (i : Nat) :
    (bytesFrom bytes i).dropWhile skips =
      bytesFrom bytes (positionAfter skips bytes i) := by
  fun_induction positionAfter skips bytes i with
  | case1 i h hs ih =>
      rw [bytesFrom_of_lt h, List.dropWhile_cons_of_pos hs, ih]
  | case2 i h hs =>
      rw [bytesFrom_of_lt h, List.dropWhile_cons_of_neg hs]
  | case3 i h =>
      rw [bytesFrom_of_le (Nat.le_of_not_lt h), List.dropWhile_nil]

theorem positionAfter_le (skips : UInt8 → Bool) (bytes : ByteArray) (i : Nat) :
    positionAfter skips bytes i ≤ max i bytes.size := by
  fun_induction positionAfter skips bytes i with
  | case1 i _ _ ih =>
      omega
  | case2 | case3 =>
      omega

theorem takeWhile_append_bytesFrom (skips : UInt8 → Bool) (bytes : ByteArray)
    (i : Nat) :
    (bytesFrom bytes i).takeWhile skips ++
      bytesFrom bytes (positionAfter skips bytes i) = bytesFrom bytes i := by
  rw [← dropWhile_bytesFrom, List.takeWhile_append_dropWhile]

theorem length_takeWhile_bytesFrom (skips : UInt8 → Bool) (bytes : ByteArray)
    (i : Nat) :
    ((bytesFrom bytes i).takeWhile skips).length =
      positionAfter skips bytes i - i := by
  have hle := le_positionAfter skips bytes i
  have hge := positionAfter_le skips bytes i
  have hlen := congrArg List.length (takeWhile_append_bytesFrom skips bytes i)
  simp only [List.length_append, length_bytesFrom] at hlen
  omega

theorem takeWhile_bytesFrom (skips : UInt8 → Bool) (bytes : ByteArray)
    (i : Nat) :
    (bytesFrom bytes i).takeWhile skips =
      slice bytes i (positionAfter skips bytes i) := by
  rw [slice_eq_take]
  exact (List.take_left' (length_takeWhile_bytesFrom skips bytes i)).symm.trans
    (congrArg (List.take _) (takeWhile_append_bytesFrom skips bytes i))

namespace Buffer

def stream (b : Buffer) : Stream :=
  ⟨bytesFrom b.bytes b.position, b.failure⟩

/-! # Header lines -/

def cutLine (b : Buffer) : List UInt8 × Bool × Nat :=
  let i := positionAfter (· ≠ newline) b.bytes b.position
  if h : i < b.bytes.size then
    (slice b.bytes b.position i ++ [b.bytes[i]], true, i + 1)
  else
    (slice b.bytes b.position i, false, i)

theorem cutLine_eq (b : Buffer) :
    Frame.cutLine b.stream.bytes =
      ⟨b.cutLine.1, b.cutLine.2.1, bytesFrom b.bytes b.cutLine.2.2⟩ := by
  simp only [Frame.cutLine, stream, cutLine, dropWhile_bytesFrom,
    takeWhile_bytesFrom]
  split
  · next e =>
      have h :
          b.bytes.size ≤ positionAfter (· ≠ newline) b.bytes b.position := by
        have := congrArg List.length e
        simp only [length_bytesFrom, List.length_nil] at this
        omega
      rw [dif_neg (Nat.not_lt.mpr h), bytesFrom_of_le h]
  · next c rest e =>
      have h :
          positionAfter (· ≠ newline) b.bytes b.position < b.bytes.size := by
        have := congrArg List.length e
        simp only [length_bytesFrom, List.length_cons] at this
        omega
      rw [bytesFrom_of_lt h] at e
      rw [dif_pos h]
      obtain ⟨hc, hr⟩ := List.cons.inj e
      rw [hc, hr]

theorem lt_cutLine {b : Buffer} (h : b.position < b.bytes.size) :
    b.position < b.cutLine.2.2 := by
  have hne : b.stream.bytes ≠ [] := by
    simp [stream, bytesFrom_of_lt h]
  have hline := cutLine_line_ne_nil hne
  have happ := congrArg List.length (cutLine_append b.stream.bytes)
  have hpos := List.length_pos_iff.mpr hline
  rw [cutLine_eq] at happ hpos
  simp only [List.length_append, length_bytesFrom, stream] at happ hpos
  omega

/-- Reads header lines up to the blank line that closes the block; `started`
tells whether bytes of the block have been read already. -/
def readHeaders (h : Headers) (started : Bool) (b : Buffer) :
    HeaderResult × Buffer :=
  if _ : b.position < b.bytes.size then
    let cut := b.cutLine
    let next := { b with position := cut.2.2 }
    match brokenOff? cut.2.1 b.failure with
    | some reason => (.fault (.io reason), { b with position := b.bytes.size })
    | none =>
      match classifyLine cut.1 with
      | .blank => (.block h, next)
      | .header text => readHeaders (readHeader h text) true next
      | .notText fault => readHeaders (h.note (.headerNotUtf8 fault)) true next
  else
    match b.failure, started with
    | some reason, _ => (.fault (.io reason), b)
    | none, true => (.fault .cutShort, b)
    | none, false => (.done, b)
termination_by b.bytes.size - b.position
decreasing_by
  all_goals
    have := lt_cutLine ‹b.position < b.bytes.size›
    show b.bytes.size - b.cutLine.2.2 < b.bytes.size - b.position
    omega

def onStream (r : α × Buffer) : α × Stream :=
  (r.1, r.2.stream)

theorem bytesFrom_ne_nil {bytes : ByteArray} {i : Nat} (h : i < bytes.size) :
    bytesFrom bytes i ≠ [] := by
  simp [bytesFrom_of_lt h]

theorem readHeaders_eq (h : Headers) (started : Bool) (b : Buffer) :
    Frame.readHeaders h started b.stream =
      onStream (b.readHeaders h started) := by
  fun_induction readHeaders h started b with
  | case1 h started b hlt cut reason hbroken =>
      have hne : b.stream.bytes ≠ [] := bytesFrom_ne_nil hlt
      have hb :
          brokenOff? b.cutLine.2.1 b.stream.failure = some reason := hbroken
      unfold Frame.readHeaders
      simp only [hne, ↓reduceDIte, cutLine_eq, hb]
      simp [onStream, stream, bytesFrom_of_le]
  | case2 h started b hlt cut next hbroken hline =>
      have hne : b.stream.bytes ≠ [] := bytesFrom_ne_nil hlt
      have hb : brokenOff? b.cutLine.2.1 b.stream.failure = none := hbroken
      have hl : classifyLine b.cutLine.1 = .blank := hline
      unfold Frame.readHeaders
      simp only [hne, ↓reduceDIte, cutLine_eq, hb, hl]
      rfl
  | case3 h started b hlt cut next hbroken text hline ih =>
      have hne : b.stream.bytes ≠ [] := bytesFrom_ne_nil hlt
      have hb : brokenOff? b.cutLine.2.1 b.stream.failure = none := hbroken
      have hl : classifyLine b.cutLine.1 = .header text := hline
      unfold Frame.readHeaders
      simp only [hne, ↓reduceDIte, cutLine_eq, hb, hl]
      exact ih
  | case4 h started b hlt cut next hbroken fault hline ih =>
      have hne : b.stream.bytes ≠ [] := bytesFrom_ne_nil hlt
      have hb : brokenOff? b.cutLine.2.1 b.stream.failure = none := hbroken
      have hl : classifyLine b.cutLine.1 = .notText fault := hline
      unfold Frame.readHeaders
      simp only [hne, ↓reduceDIte, cutLine_eq, hb, hl]
      exact ih
  | case5 h started b hlt reason hf =>
      unfold Frame.readHeaders
      simp [stream, bytesFrom_of_le (Nat.le_of_not_lt hlt), hf, onStream]
  | case6 h b hlt hf =>
      unfold Frame.readHeaders
      simp [stream, bytesFrom_of_le (Nat.le_of_not_lt hlt), hf, onStream]
  | case7 h b hlt hf =>
      unfold Frame.readHeaders
      simp [stream, bytesFrom_of_le (Nat.le_of_not_lt hlt), hf, onStream]

/-! # Bodies -/

def isSpaceByte (b : UInt8) : Bool :=
  b = 0x20 || b = 0x0A || b = 0x09 || b = 0x0D

theorem decodeBody_cons_of_isSpaceByte {b : UInt8} (h : isSpaceByte b = true)
    (body : List UInt8) :
    Frame.decodeBody (b :: body) = Frame.decodeBody body := by
  have hc : ∃ c : Char, String.utf8EncodeChar c = [b] ∧ Json.isSpace c = true ∧
      b < 128 := by
    simp only [isSpaceByte, Bool.or_eq_true, decide_eq_true_eq] at h
    rcases h with ((rfl | rfl) | rfl) | rfl
    · exact ⟨' ', by decide⟩
    · exact ⟨'\n', by decide⟩
    · exact ⟨'\t', by decide⟩
    · exact ⟨'\r', by decide⟩
  obtain ⟨c, hcb, hspace, hb⟩ := hc
  simp only [Frame.decodeBody, Utf8.decode?_cons hb hcb]
  cases Utf8.decode? body with
  | none =>
      rfl
  | some text =>
      simp only [bodyResult, Option.map_some, Option.bind_some,
        Json.parse?_space_cons hspace]

theorem decodeBody_dropWhile (body : List UInt8) :
    Frame.decodeBody (body.dropWhile isSpaceByte) = Frame.decodeBody body := by
  induction body with
  | nil =>
      rfl
  | cons b rest ih =>
      by_cases h : isSpaceByte b = true
      · rw [List.dropWhile_cons_of_pos h, ih, decodeBody_cons_of_isSpaceByte h]
      · rw [List.dropWhile_cons_of_neg h]

/-- The value that the bytes from `i` to `j` encode. Spaces in front of it are
passed over. -/
def decodeBody (bytes : ByteArray) (i j : Nat) : ReadResult :=
  bodyResult (String.fromUTF8?
    (bytes.extract (min (positionAfter isSpaceByte bytes i) j) j))

theorem dropWhile_take (p : α → Bool) (xs : List α) (n : Nat) :
    (xs.take n).dropWhile p =
      (xs.dropWhile p).take (n - (xs.takeWhile p).length) := by
  induction xs generalizing n with
  | nil =>
      simp
  | cons x xs ih =>
      cases n with
      | zero =>
          simp
      | succ n =>
          by_cases h : p x = true
          · simp [h, ih]
          · simp [h]

theorem fromUTF8?_extract (bytes : ByteArray) (i j : Nat) :
    String.fromUTF8? (bytes.extract i j) = Utf8.decode? (slice bytes i j) := by
  simp only [Utf8.decode?, slice, Array.toArray_toList]

theorem slice_of_le {bytes : ByteArray} {i j : Nat} (h : j ≤ i) :
    slice bytes i j = [] := by
  rw [slice_eq_take, Nat.sub_eq_zero_of_le h, List.take_zero]

theorem decodeBody_eq (bytes : ByteArray) (i j : Nat) :
    decodeBody bytes i j = Frame.decodeBody (slice bytes i j) := by
  have hle := le_positionAfter isSpaceByte bytes i
  have hn : j - i - (positionAfter isSpaceByte bytes i - i) =
      j - positionAfter isSpaceByte bytes i := by
    omega
  rw [← decodeBody_dropWhile, slice_eq_take, dropWhile_take,
    dropWhile_bytesFrom, length_takeWhile_bytesFrom, hn, ← slice_eq_take,
    decodeBody, Frame.decodeBody, fromUTF8?_extract]
  by_cases h : positionAfter isSpaceByte bytes i ≤ j
  · rw [Nat.min_eq_left h]
  · have h := Nat.le_of_not_le h
    rw [Nat.min_eq_right h, slice_of_le h, slice_of_le (Nat.le_refl j)]

def skipBody (b : Buffer) (length : Nat) (problem : Problem) :
    ReadResult × Buffer :=
  if length ≤ b.bytes.size - b.position then
    (.fault (.malformedFrame problem),
      { b with position := b.position + length })
  else
    (.fault (endFault b.failure), { b with position := b.bytes.size })

def readBody (b : Buffer) (length : Nat) : ReadResult × Buffer :=
  if length ≤ b.bytes.size - b.position then
    (decodeBody b.bytes b.position (b.position + length),
      { b with position := b.position + length })
  else
    (.fault (endFault b.failure), { b with position := b.bytes.size })

theorem dropExactly?_eq (n : Nat) (xs : List α) :
    dropExactly? n xs = if n ≤ xs.length then some (xs.drop n) else none := by
  induction n generalizing xs with
  | zero =>
      simp [dropExactly?]
  | succ n ih =>
      cases xs with
      | nil =>
          simp [dropExactly?]
      | cons x xs =>
          simp [dropExactly?, ih]

theorem skipBody_eq (b : Buffer) (length : Nat) (problem : Problem) :
    Frame.skipBody b.stream length problem =
      onStream (b.skipBody length problem) := by
  simp only [Frame.skipBody, skipBody, dropExactly?_eq, stream,
    length_bytesFrom]
  by_cases h : length ≤ b.bytes.size - b.position
  · simp [h, onStream, stream, drop_bytesFrom]
  · simp [h, onStream, stream, bytesFrom_of_le]

theorem readBody_eq (b : Buffer) (length : Nat) :
    Frame.readBody b.stream length = onStream (b.readBody length) := by
  simp only [Frame.readBody, readBody, dropExactly?_eq, stream,
    length_bytesFrom]
  by_cases h : length ≤ b.bytes.size - b.position
  · simp [h, onStream, stream, drop_bytesFrom, decodeBody_eq, slice_eq_take]
  · simp [h, onStream, stream, bytesFrom_of_le]

/-! # Frames -/

def read (b : Buffer) : ReadResult × Buffer :=
  match b.readHeaders {} false with
  | (.done, b) => (.done, b)
  | (.fault f, b) => (.fault f, b)
  | (.block ⟨some length, none⟩, b) =>
    if length ≤ maxBytes then b.readBody length
    else b.skipBody length (.tooLong length)
  | (.block ⟨some length, some problem⟩, b) => b.skipBody length problem
  | (.block ⟨none, problem⟩, b) =>
    (.fault (.malformedFrame (problem.getD .missingLength)), b)

theorem read_eq (b : Buffer) : Frame.read b.stream = onStream b.read := by
  simp only [Frame.read, read, readHeaders_eq]
  rcases b.readHeaders {} false with ⟨result, rest⟩
  match result with
  | .done =>
      rfl
  | .fault f =>
      rfl
  | .block ⟨some length, none⟩ =>
      by_cases h : length ≤ maxBytes
      · simp only [onStream, h, ↓reduceIte]
        exact readBody_eq rest length
      · simp only [onStream, h, ↓reduceIte]
        exact skipBody_eq rest length (.tooLong length)
  | .block ⟨some length, some problem⟩ =>
      exact skipBody_eq rest length problem
  | .block ⟨none, problem⟩ =>
      rfl

def readAllWith : Nat → Buffer → List ReadResult
  | 0, _ => []
  | fuel + 1, b =>
    let (r, b) := b.read
    if r.continues then r :: readAllWith fuel b else [r]

theorem readAllWith_eq (fuel : Nat) (b : Buffer) :
    Frame.readAllWith fuel b.stream = readAllWith fuel b := by
  induction fuel generalizing b with
  | zero =>
      rfl
  | succ fuel ih =>
      simp only [Frame.readAllWith, readAllWith, read_eq, onStream, ih]

def readAll (b : Buffer) : List ReadResult :=
  readAllWith (b.bytes.size - b.position + 1) b

/-- A buffer yields what its unread bytes yield. -/
theorem readAll_eq (b : Buffer) : b.readAll = Frame.readAll b.stream := by
  rw [Frame.readAll, readAll, ← readAllWith_eq]
  simp only [stream, length_bytesFrom]

end Buffer
end Frame
end CodeIntel
