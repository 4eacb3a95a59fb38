/-!
# UTF-8

Where a byte sequence stops being UTF-8, and the text that is shown for bytes
which need not be UTF-8.
-/

namespace CodeIntel
namespace Utf8

/-- Why bytes are not UTF-8: `index` bytes before the fault are well formed. -/
inductive Fault where
  /-- `length` bytes at `index` begin no character. -/
  | invalid (length index : Nat)
  /-- The bytes end inside the character that starts at `index`. -/
  | incomplete (index : Nat)
deriving DecidableEq, Repr

def Fault.message : Fault → String
  | .invalid length index =>
    s!"invalid utf-8 sequence of {length} bytes from index {index}"
  | .incomplete index => s!"incomplete utf-8 byte sequence from index {index}"

inductive Head where
  | char (c : Char) (width : Nat) (rest : List UInt8)
  | invalid (length : Nat) (rest : List UInt8)
  | incomplete

def inByteRange (lo hi b : UInt8) : Bool :=
  lo ≤ b && b ≤ hi

def isTrail (b : UInt8) : Bool :=
  inByteRange 0x80 0xBF b

def trailBits (b : UInt8) : Nat :=
  b.toNat % 64

/-- The range of the second byte, which keeps out overlong forms, surrogates and
numbers too large. -/
def secondRange (lead : UInt8) : UInt8 × UInt8 :=
  if lead = 0xE0 then (0xA0, 0xBF)
  else if lead = 0xED then (0x80, 0x9F)
  else if lead = 0xF0 then (0x90, 0xBF)
  else if lead = 0xF4 then (0x80, 0x8F)
  else (0x80, 0xBF)

def isSecond (lead b : UInt8) : Bool :=
  inByteRange (secondRange lead).1 (secondRange lead).2 b

def head (lead : UInt8) (rest : List UInt8) : Head :=
  if lead < 0x80 then .char (Char.ofNat lead.toNat) 1 rest
  else if inByteRange 0xC2 0xDF lead then
    match rest with
    | [] => .incomplete
    | b :: rest' =>
      if isTrail b then
        .char (Char.ofNat (lead.toNat % 32 * 64 + trailBits b)) 2 rest'
      else .invalid 1 rest
  else if inByteRange 0xE0 0xEF lead then
    match rest with
    | [] => .incomplete
    | b :: rest₁ =>
      if !isSecond lead b then .invalid 1 rest
      else match rest₁ with
        | [] => .incomplete
        | c :: rest₂ =>
          if isTrail c then
            .char (Char.ofNat
              ((lead.toNat % 16 * 64 + trailBits b) * 64 + trailBits c)) 3 rest₂
          else .invalid 2 rest₁
  else if inByteRange 0xF0 0xF4 lead then
    match rest with
    | [] => .incomplete
    | b :: rest₁ =>
      if !isSecond lead b then .invalid 1 rest
      else match rest₁ with
        | [] => .incomplete
        | c :: rest₂ =>
          if !isTrail c then .invalid 2 rest₁
          else match rest₂ with
            | [] => .incomplete
            | d :: rest₃ =>
              if isTrail d then
                .char (Char.ofNat
                  (((lead.toNat % 8 * 64 + trailBits b) * 64 + trailBits c) *
                    64 + trailBits d)) 4 rest₃
              else .invalid 3 rest₂
  else .invalid 1 rest

/-- The first fault in a byte sequence that starts at `index`; `fuel` bounds the
characters read. -/
def faultFrom (index : Nat) : Nat → List UInt8 → Option Fault
  | 0, _ => none
  | _, [] => none
  | fuel + 1, lead :: rest =>
    match head lead rest with
    | .char _ width rest => faultFrom (index + width) fuel rest
    | .invalid length _ => some (.invalid length index)
    | .incomplete => some (.incomplete index)

def fault? (bytes : List UInt8) : Option Fault :=
  faultFrom 0 bytes.length bytes

def replacement : Char := '\uFFFD'

def lossyFrom : Nat → List UInt8 → List Char
  | 0, _ => []
  | _, [] => []
  | fuel + 1, lead :: rest =>
    match head lead rest with
    | .char c _ rest => c :: lossyFrom fuel rest
    | .invalid _ rest => replacement :: lossyFrom fuel rest
    | .incomplete => [replacement]

/-- The text of a byte sequence, each faulty stretch shown as one replacement
mark. -/
def lossy (bytes : List UInt8) : String :=
  String.ofList (lossyFrom bytes.length bytes)

def encode (text : String) : List UInt8 :=
  text.toByteArray.data.toList

/-- The text that the bytes encode, if they are UTF-8. -/
def decode? (bytes : List UInt8) : Option String :=
  String.fromUTF8? ⟨bytes.toArray⟩

theorem decode?_encode (text : String) : decode? (encode text) = some text := by
  have h : (⟨(encode text).toArray⟩ : ByteArray) = text.toByteArray := by
    simp [encode]
  rw [decode?, h, String.fromUTF8?, dif_pos text.isValidUTF8]
  rfl

theorem decode?_eq_some_iff {bytes : List UInt8} {text : String} :
    decode? bytes = some text ↔ encode text = bytes := by
  constructor
  · intro h
    simp only [decode?, String.fromUTF8?] at h
    split at h
    · simp only [Option.some.injEq] at h
      rw [← h]
      simp [encode, String.fromUTF8]
    · simp at h
  · intro h
    rw [← h, decode?_encode]

theorem encode_injective {s t : String} (h : encode s = encode t) : s = t := by
  have hs := decode?_encode s
  rw [h, decode?_encode] at hs
  exact (Option.some.inj hs).symm

theorem encode_ofList_cons (c : Char) (cs : List Char) :
    encode (String.ofList (c :: cs)) = String.utf8EncodeChar c ++
      encode (String.ofList cs) := by
  simp [encode, List.utf8Encode]

theorem encodeChar_of_head_lt {c : Char} {b : UInt8} {rest : List UInt8}
    (hb : b < 128) (h : String.utf8EncodeChar c = b :: rest) : rest = [] := by
  have hn : b.toNat < 128 := by simpa [UInt8.lt_iff_toNat_lt] using hb
  unfold String.utf8EncodeChar at h
  simp only at h
  split at h
  · simp_all
  · split at h
    · have hh := congrArg UInt8.toNat (List.cons.inj h).1
      simp only [UInt8.toNat_ofNat'] at hh
      omega
    · split at h
      · have hh := congrArg UInt8.toNat (List.cons.inj h).1
        simp only [UInt8.toNat_ofNat'] at hh
        omega
      · have hh := congrArg UInt8.toNat (List.cons.inj h).1
        simp only [UInt8.toNat_ofNat'] at hh
        omega

theorem decode?_cons {b : UInt8} {c : Char} (hb : b < 128)
    (hc : String.utf8EncodeChar c = [b]) (bytes : List UInt8) :
    decode? (b :: bytes) = (decode? bytes).map fun s =>
      String.ofList (c :: s.toList) := by
  apply Option.ext
  intro text
  simp only [Option.map_eq_some_iff, decode?_eq_some_iff]
  constructor
  · intro h
    obtain ⟨l, rfl⟩ := String.exists_eq_ofList text
    cases l with
    | nil =>
        simp [encode] at h
    | cons d ds =>
        rw [encode_ofList_cons] at h
        cases he : String.utf8EncodeChar d with
        | nil =>
            exact absurd he String.utf8EncodeChar_ne_nil
        | cons e rest =>
            rw [he, List.cons_append] at h
            obtain ⟨rfl, hbytes⟩ := List.cons.inj h
            obtain rfl := encodeChar_of_head_lt hb he
            have hdc : d = c := by
              have hs : String.ofList [d] = String.ofList [c] :=
                encode_injective
                  (by rw [encode_ofList_cons, encode_ofList_cons, he, hc])
              simpa using congrArg String.toList hs
            exact ⟨String.ofList ds, by simpa using hbytes, by simp [hdc]⟩
  · rintro ⟨s, rfl, rfl⟩
    obtain ⟨l, rfl⟩ := String.exists_eq_ofList s
    rw [String.toList_ofList, encode_ofList_cons, hc]
    rfl

end Utf8
end CodeIntel
