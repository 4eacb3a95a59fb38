import CodeIntel.Frame.Buffer
import CodeIntel.Frame.Writer
import CodeIntel.Proofs.Text.Numeral

/-!
# Reading frames that were written

A frame that was written is read as the value of its body, whatever follows it.
If the bytes end inside a frame, the reader says so: inside the line of its
length, at the blank line, or in the body.
-/

namespace CodeIntel
namespace Frame

/-! # The bytes of a frame -/

def lengthText (length : Nat) : List Char :=
  "Content-Length".toList ++ ':' :: ' ' :: Nat.toDigits 10 length

def lengthLine (length : Nat) : List Char :=
  lengthText length ++ ['\r']

theorem encode_append (s t : String) :
    Utf8.encode (s ++ t) = Utf8.encode s ++ Utf8.encode t := by
  simp [Utf8.encode]

theorem header_text (length : Nat) :
    s!"Content-Length: {length}\x0d\n\x0d\n" =
      String.ofList (lengthLine length) ++ "\n\x0d\n" := by
  have hdigits : (toString length).toList = Nat.toDigits 10 length :=
    Nat.toList_repr
  have hsplit (name digits : List Char) :
      name ++ [':', ' '] ++ digits ++ "\x0d\n\x0d\n".toList =
        name ++ ':' :: ' ' :: digits ++ ['\r'] ++ "\n\x0d\n".toList := by
    simp
  refine String.toList_inj.mp ?_
  rw [String.toList_append, String.toList_append, hdigits, String.toList_append,
    String.toList_ofList]
  exact hsplit "Content-Length".toList _

theorem encodeBody_eq (body : List UInt8) :
    encodeBody body =
      Utf8.encode (String.ofList (lengthLine body.length)) ++ newline :: 13 ::
        newline :: body := by
  rw [encodeBody, header_text, encode_append, List.append_assoc]
  rfl

theorem encodeChar_of_ascii {c : Char} (h : c.toNat < 128) :
    String.utf8EncodeChar c = [UInt8.ofNat c.toNat] := by
  have hsize : c.utf8Size = 1 := by
    have hval : c.val ≤ 0x7F := by
      rw [UInt32.le_iff_toNat_le]
      exact Nat.le_of_lt_succ h
    rw [Char.utf8Size]
    exact if_pos hval
  rw [String.utf8EncodeChar_eq_singleton hsize]
  rfl

theorem newline_not_mem_encode {text : List Char}
    (htext : ∀ c ∈ text, c.toNat < 128 ∧ c ≠ '\n') :
    newline ∉ Utf8.encode (String.ofList text) := by
  induction text with
  | nil =>
      simp [Utf8.encode]
  | cons c rest ih =>
      rw [Utf8.encode_ofList_cons, List.mem_append]
      rintro (hc | hrest)
      · obtain ⟨hascii, hne⟩ := htext c List.mem_cons_self
        rw [encodeChar_of_ascii hascii, List.mem_singleton] at hc
        have hcode : c.toNat = 10 := by
          have h := congrArg UInt8.toNat hc
          rw [UInt8.toNat_ofNat', Nat.mod_eq_of_lt (by omega)] at h
          exact h.symm
        exact hne (Char.toNat_inj.mp hcode)
      · exact ih (fun d hd => htext d (List.mem_cons_of_mem c hd)) hrest

theorem isDigit_of_mem_toDigits {length : Nat} :
    ∀ c ∈ Nat.toDigits 10 length, c.isDigit = true :=
  fun _ hc => Nat.isDigit_of_mem_toDigits (by decide) (by decide) hc

theorem ascii_of_isDigit {c : Char} (h : c.isDigit = true) :
    c.toNat < 128 ∧ c ≠ '\n' := by
  rw [Char.isDigit, Bool.and_eq_true, decide_eq_true_eq, decide_eq_true_eq] at h
  have hlo : 48 ≤ c.toNat := h.1
  have hhi : c.toNat ≤ 57 := h.2
  refine ⟨by omega, ?_⟩
  rintro rfl
  exact absurd hlo (by decide)

theorem lengthLine_ascii (length : Nat) :
    ∀ c ∈ lengthLine length, c.toNat < 128 ∧ c ≠ '\n' := by
  intro c hc
  rcases List.mem_append.mp hc with htext | hreturn
  · rcases List.mem_append.mp htext with hname | hvalue
    · have hall : "Content-Length".toList.all
          (fun d => decide (d.toNat < 128 ∧ d ≠ '\n')) = true := by
        decide
      exact of_decide_eq_true (List.all_eq_true.mp hall c hname)
    · rcases List.mem_cons.mp hvalue with rfl | hvalue
      · decide
      · rcases List.mem_cons.mp hvalue with rfl | hdigit
        · decide
        · exact ascii_of_isDigit (isDigit_of_mem_toDigits c hdigit)
  · rw [List.mem_singleton.mp hreturn]
    decide

/-! # Lines -/

theorem cutLine_of_line {line : List UInt8} (h : newline ∉ line)
    (rest : List UInt8) :
    cutLine (line ++ newline :: rest) = ⟨line ++ [newline], true, rest⟩ := by
  have hline : ∀ b ∈ line, decide (b ≠ newline) = true := by
    intro b hb
    have hne : b ≠ newline := fun heq => h (heq ▸ hb)
    simp [hne]
  have hdrop :
      (line ++ newline :: rest).dropWhile (· ≠ newline) = newline :: rest := by
    rw [List.dropWhile_append_of_pos hline,
      List.dropWhile_cons_of_neg (by simp)]
  have htake : (line ++ newline :: rest).takeWhile (· ≠ newline) = line := by
    rw [List.takeWhile_append_of_pos hline,
      List.takeWhile_cons_of_neg (by simp), List.append_nil]
  simp only [cutLine, hdrop, htake]

theorem cutLine_of_torn {bytes : List UInt8} (h : newline ∉ bytes) :
    cutLine bytes = ⟨bytes, false, []⟩ := by
  have hline : ∀ b ∈ bytes, decide (b ≠ newline) = true := by
    intro b hb
    have hne : b ≠ newline := fun heq => h (heq ▸ hb)
    simp [hne]
  simp only [cutLine, List.dropWhile_eq_nil_iff.mpr hline,
    List.takeWhile_eq_self_iff.mpr hline]

theorem classifyLine_encode (text : List Char) :
    classifyLine (Utf8.encode (String.ofList text)) =
      if (Text.trim text).isEmpty then .blank
      else .header (Text.trim text) := by
  simp only [classifyLine, Utf8.decode?_encode, String.toList_ofList]

theorem classifyLine_ne_blank {c : Char} (hascii : c.toNat < 128)
    (hblank : Text.isBlank c = false) (bytes : List UInt8) :
    classifyLine (UInt8.ofNat c.toNat :: bytes) ≠ .blank := by
  have hbyte : UInt8.ofNat c.toNat < 128 := by
    rw [UInt8.lt_iff_toNat_lt, UInt8.toNat_ofNat', Nat.mod_eq_of_lt (by omega)]
    exact hascii
  rw [classifyLine, Utf8.decode?_cons hbyte (encodeChar_of_ascii hascii)]
  cases Utf8.decode? bytes with
  | none =>
      exact fun h => nomatch h
  | some text =>
      have hne : (Text.trim (c :: text.toList)).isEmpty = false := by
        rw [List.isEmpty_eq_false_iff]
        exact Text.trim_cons_ne_nil hblank text.toList
      simp only [Option.map_some, String.toList_ofList, hne]
      exact fun h => nomatch h

/-! # Header blocks -/

theorem readHeaders_end (h : Headers) :
    readHeaders h true ⟨[], none⟩ = (.fault .cutShort, ⟨[], none⟩) := by
  unfold readHeaders
  rfl

theorem readHeaders_line {line : List UInt8} (hline : newline ∉ line)
    (rest : List UInt8) (h : Headers) (started : Bool)
    (failure : Option String) :
    readHeaders h started ⟨line ++ newline :: rest, failure⟩ =
      match classifyLine (line ++ [newline]) with
      | .blank => (.block h, ⟨rest, failure⟩)
      | .header text => readHeaders (readHeader h text) true ⟨rest, failure⟩
      | .notText fault =>
        readHeaders (h.note (.headerNotUtf8 fault)) true ⟨rest, failure⟩ := by
  conv => lhs; unfold readHeaders
  rw [dif_neg (by simp)]
  cases hclass : classifyLine (line ++ [newline]) <;>
    simp only [cutLine_of_line hline, brokenOff?, if_true, hclass]

/-- A line that is torn off is read like a whole one, but nothing follows it. -/
theorem readHeaders_torn {bytes : List UInt8} (hbytes : newline ∉ bytes)
    (hne : bytes ≠ []) (h : Headers) (started : Bool) :
    readHeaders h started ⟨bytes, none⟩ =
      match classifyLine bytes with
      | .blank => (.block h, ⟨[], none⟩)
      | _ => (.fault .cutShort, ⟨[], none⟩) := by
  unfold readHeaders
  rw [dif_neg hne]
  simp only [cutLine_of_torn hbytes, brokenOff?]
  cases classifyLine bytes with
  | blank =>
      rfl
  | header text =>
      exact readHeaders_end _
  | notText fault =>
      exact readHeaders_end _

/-! # The header block of a frame -/

theorem trim_lengthLine (length : Nat) :
    Text.trim (lengthLine length ++ ['\n']) = lengthText length := by
  have hstart : Text.trimStart (lengthLine length ++ ['\n']) =
      lengthLine length ++ ['\n'] :=
    Text.trimStart_cons (by decide) _
  have hbegin : lengthText length =
      ("Content-Length".toList ++ [':', ' ']) ++ Nat.toDigits 10 length := by
    rw [List.append_assoc]
    rfl
  rw [Text.trim, hstart, Text.trimEnd_append_blank (by decide), lengthLine,
    Text.trimEnd_append_blank (by decide), hbegin]
  exact Text.trimEnd_digits Nat.toDigits_ne_nil isDigit_of_mem_toDigits _

theorem classifyLine_lengthLine (length : Nat) :
    classifyLine (Utf8.encode (String.ofList (lengthLine length)) ++
      [newline]) = .header (lengthText length) := by
  have hencode : Utf8.encode (String.ofList (lengthLine length)) ++ [newline] =
      Utf8.encode (String.ofList (lengthLine length ++ ['\n'])) := by
    rw [String.ofList_append, encode_append]
    rfl
  rw [hencode, classifyLine_encode, trim_lengthLine]
  rfl

theorem splitHeader_append {name : List Char} (hname : ':' ∉ name)
    (value : List Char) :
    splitHeader (name ++ ':' :: value) = some (name, value) := by
  have hplain : ∀ c ∈ name, decide (c ≠ ':') = true := by
    intro c hc
    have hne : c ≠ ':' := fun heq => hname (heq ▸ hc)
    simp [hne]
  rw [splitHeader, List.dropWhile_append_of_pos hplain,
    List.dropWhile_cons_of_neg (by simp),
    List.takeWhile_append_of_pos hplain, List.takeWhile_cons_of_neg (by simp),
    List.append_nil]

theorem readHeader_lengthText {length : Nat} (h : length ≤ Numeral.max64) :
    readHeader {} (lengthText length) = ⟨some length, none⟩ := by
  have hsplit : splitHeader (lengthText length) =
      some ("Content-Length".toList, ' ' :: Nat.toDigits 10 length) :=
    splitHeader_append (by decide) _
  have hname :
      (Text.trim "Content-Length".toList).map Char.toLower = lengthName := by
    decide
  have hvalue :
      Text.trim (' ' :: Nat.toDigits 10 length) = Nat.toDigits 10 length :=
    Text.trim_space_digits Nat.toDigits_ne_nil isDigit_of_mem_toDigits
  simp only [readHeader, hsplit, hname, if_true, hvalue,
    Numeral.read_toDigits h]

theorem classifyLine_blank : classifyLine [13, newline] = .blank :=
  (classifyLine_encode ['\r', '\n']).trans (if_pos (by decide))

theorem classifyLine_return : classifyLine [13] = .blank :=
  (classifyLine_encode ['\r']).trans (if_pos (by decide))

theorem readHeaders_frame {length : Nat} (h : length ≤ Numeral.max64)
    (more : List UInt8) :
    readHeaders {} false
        ⟨Utf8.encode (String.ofList (lengthLine length)) ++ newline :: more,
          none⟩ =
      readHeaders ⟨some length, none⟩ true ⟨more, none⟩ := by
  rw [readHeaders_line (newline_not_mem_encode (lengthLine_ascii length)),
    classifyLine_lengthLine]
  simp only [readHeader_lengthText h]

theorem readHeaders_blank (h : Headers) (body : List UInt8) :
    readHeaders h true ⟨13 :: newline :: body, none⟩ =
      (.block h, ⟨body, none⟩) := by
  have hreturn : newline ∉ [13] := by
    decide
  have hline := readHeaders_line hreturn body h true none
  rw [List.singleton_append, List.singleton_append, classifyLine_blank] at hline
  exact hline

/-! # One frame -/

theorem readBody_append (body rest : List UInt8) (failure : Option String) :
    readBody ⟨body ++ rest, failure⟩ body.length =
      (decodeBody body, ⟨rest, failure⟩) := by
  have hlength : body.length ≤ (body ++ rest).length := by
    rw [List.length_append]
    exact Nat.le_add_right _ _
  simp only [readBody, Buffer.dropExactly?_eq, if_pos hlength, List.take_left,
    List.drop_left]

theorem readBody_short {bytes : List UInt8} {length : Nat}
    (h : bytes.length < length) :
    readBody ⟨bytes, none⟩ length = (.fault .cutShort, ⟨[], none⟩) := by
  simp only [readBody, Buffer.dropExactly?_eq, if_neg (Nat.not_le.mpr h)]
  rfl

theorem read_of_block {s rest : Stream} {length : Nat}
    (hheaders : readHeaders {} false s = (.block ⟨some length, none⟩, rest))
    (hlength : length ≤ maxBytes) : read s = readBody rest length := by
  simp only [read, hheaders, if_pos hlength]

theorem read_of_fault {s rest : Stream} {f : TransportFault}
    (hheaders : readHeaders {} false s = (.fault f, rest)) :
    read s = (.fault f, rest) := by
  simp only [read, hheaders]

theorem maxBytes_le_max64 : maxBytes ≤ Numeral.max64 := by
  decide

theorem read_end : read ⟨[], none⟩ = (.done, ⟨[], none⟩) := by
  unfold read readHeaders
  rfl

theorem read_encodeBody {body : List UInt8} (h : body.length ≤ maxBytes)
    (rest : List UInt8) :
    read ⟨encodeBody body ++ rest, none⟩ = (decodeBody body, ⟨rest, none⟩) := by
  have hheaders : readHeaders {} false ⟨encodeBody body ++ rest, none⟩ =
      (.block ⟨some body.length, none⟩, ⟨body ++ rest, none⟩) := by
    rw [encodeBody_eq, List.append_assoc]
    exact (readHeaders_frame (h.trans maxBytes_le_max64) _).trans
      (readHeaders_blank _ _)
  rw [read_of_block hheaders h, readBody_append]

/-! # Torn frames -/

theorem encode_lengthLine_cons (length : Nat) :
    ∃ more, Utf8.encode (String.ofList (lengthLine length)) =
      UInt8.ofNat 'C'.toNat :: more := by
  have hcons : ∃ text, lengthLine length = 'C' :: text := ⟨_, rfl⟩
  obtain ⟨text, htext⟩ := hcons
  rw [htext, Utf8.encode_ofList_cons, encodeChar_of_ascii (by decide)]
  exact ⟨_, rfl⟩

theorem read_torn_line {bytes : List UInt8} {length : Nat} (hne : bytes ≠ [])
    (hbegin : bytes <+: Utf8.encode (String.ofList (lengthLine length))) :
    read ⟨bytes, none⟩ = (.fault .cutShort, ⟨[], none⟩) := by
  have hnewline : newline ∉ bytes := fun hmem =>
    newline_not_mem_encode (lengthLine_ascii length) (hbegin.subset hmem)
  have hfirst : ∃ more, bytes = UInt8.ofNat 'C'.toNat :: more := by
    obtain ⟨more, hmore⟩ := encode_lengthLine_cons length
    rw [hmore] at hbegin
    cases bytes with
    | nil =>
        exact absurd rfl hne
    | cons b tail =>
        rw [(List.cons_prefix_cons.mp hbegin).1]
        exact ⟨tail, rfl⟩
  obtain ⟨more, rfl⟩ := hfirst
  apply read_of_fault
  rw [readHeaders_torn hnewline hne]
  cases hclass : classifyLine (UInt8.ofNat 'C'.toNat :: more) with
  | blank =>
      exact absurd hclass (classifyLine_ne_blank (by decide) (by decide) more)
  | header text =>
      rfl
  | notText fault =>
      rfl

theorem read_torn_rest {length : Nat} (h : length ≤ maxBytes)
    {tail body : List UInt8} (hbody : body.length = length) (hpos : body ≠ [])
    (hbegin : tail <+: 13 :: newline :: body)
    (hproper : tail ≠ 13 :: newline :: body) :
    read ⟨Utf8.encode (String.ofList (lengthLine length)) ++ newline :: tail,
      none⟩ = (.fault .cutShort, ⟨[], none⟩) := by
  have hframe := readHeaders_frame (h.trans maxBytes_le_max64)
  cases tail with
  | nil =>
      exact read_of_fault ((hframe []).trans (readHeaders_end _))
  | cons b tail =>
      obtain ⟨rfl, hafter⟩ := List.cons_prefix_cons.mp hbegin
      cases tail with
      | nil =>
          -- a lone carriage return is trimmed away: the block counts as closed
          have hblock : readHeaders ⟨some length, none⟩ true ⟨[13], none⟩ =
              (.block ⟨some length, none⟩, ⟨[], none⟩) := by
            rw [readHeaders_torn (by decide) (by decide), classifyLine_return]
          rw [read_of_block ((hframe [13]).trans hblock) h]
          apply readBody_short
          rw [← hbody]
          exact List.length_pos_iff.mpr hpos
      | cons b tail =>
          obtain ⟨rfl, hinside⟩ := List.cons_prefix_cons.mp hafter
          rw [read_of_block ((hframe _).trans (readHeaders_blank _ tail)) h]
          apply readBody_short
          rw [← hbody]
          apply Nat.lt_of_le_of_ne hinside.length_le
          intro hlength
          apply hproper
          rw [hinside.eq_of_length hlength]

/-- A frame that is not read to its end is one that the stream cuts short. -/
theorem read_torn {bytes body : List UInt8} (h : body.length ≤ maxBytes)
    (hpos : body ≠ []) (hne : bytes ≠ []) (hbegin : bytes <+: encodeBody body)
    (hproper : bytes ≠ encodeBody body) :
    read ⟨bytes, none⟩ = (.fault .cutShort, ⟨[], none⟩) := by
  rw [encodeBody_eq] at hbegin hproper
  rcases List.prefix_or_prefix_of_prefix hbegin (List.prefix_append _ _) with
    hline | hline
  · exact read_torn_line hne hline
  · obtain ⟨tail, rfl⟩ := hline
    have htail := (List.prefix_append_right_inj _).mp hbegin
    cases tail with
    | nil =>
        rw [List.append_nil] at hne ⊢
        exact read_torn_line hne List.prefix_rfl
    | cons b tail =>
        obtain ⟨rfl, hafter⟩ := List.cons_prefix_cons.mp htail
        apply read_torn_rest h rfl hpos hafter
        intro hwhole
        apply hproper
        rw [hwhole]

end Frame
end CodeIntel
