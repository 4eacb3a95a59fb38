/-!
# Options

Options come in a long and some in a short form. A value follows its option, or
is attached to it; a flag stands alone. What a program takes is laid down in a
table.
-/

namespace CodeIntel

inductive UsageFault where
  | missingRequiredArgument
  | unknownArgument
  /-- An option stands without its value, or the value is empty where it must
  not be. -/
  | invalidValue
  /-- A value is not of the kind that its option takes. -/
  | valueValidation
  /-- An option that may be given once is given twice. -/
  | argumentConflict
  /-- A value is attached to an option that takes none. -/
  | tooManyValues
  | displayHelp
  | displayVersion
deriving DecidableEq, Repr

inductive OptionSwitch (κ : Type) where
  | key (k : κ)
  | flag (k : κ)
  | help
  | version
deriving DecidableEq, Repr

structure OptionTable (κ : Type) where
  long? : String → Option (OptionSwitch κ)
  short? : Char → Option (OptionSwitch κ)
  /-- Whether an option may be given more than once. -/
  repeats : κ → Bool
  /-- Whether a value that follows its option may look like an option itself. -/
  takesDash : κ → Bool
  check : κ → String → Except UsageFault Unit

structure OptionReading (κ : Type) where
  /-- The options with their values that have been accepted. -/
  settled : List (κ × String) := []
  /-- The last option with its value, which is accepted when the next option
  comes. -/
  pending : Option (κ × Option String) := none
  /-- Whether only operands may follow. -/
  operandsOnly : Bool := false
deriving DecidableEq, Repr

namespace OptionReading

variable {κ : Type} [DecidableEq κ]

/-! # Values -/

def isSet (s : OptionReading κ) (k : κ) : Bool :=
  s.settled.any fun e => e.1 = k

def value? (s : OptionReading κ) (k : κ) : Option String :=
  (s.settled.find? fun e => e.1 = k).map Prod.snd

def values (s : OptionReading κ) (k : κ) : List String :=
  (s.settled.filter fun e => e.1 = k).map Prod.snd

def accept (t : OptionTable κ) (s : OptionReading κ) (k : κ) (v : String) :
    Except UsageFault (OptionReading κ) :=
  if t.repeats k = false ∧ s.isSet k then .error .argumentConflict
  else
    match t.check k v with
    | .ok () => .ok { s with settled := s.settled ++ [(k, v)] }
    | .error f => .error f

def settle (t : OptionTable κ) (s : OptionReading κ) :
    Except UsageFault (OptionReading κ) :=
  match s.pending with
  | none => .ok s
  | some (_, none) => .error .invalidValue
  | some (k, some v) => accept t { s with pending := none } k v

/-! # Words -/

def readKey (t : OptionTable κ) (s : OptionReading κ) (k : κ)
    (attached : Option String) :
    Except UsageFault (OptionReading κ) := do
  let s ← settle t s
  match attached with
  | some v => accept t s k v
  | none => .ok { s with pending := some (k, none) }

def readFlag (t : OptionTable κ) (s : OptionReading κ) (k : κ) :
    Except UsageFault (OptionReading κ) := do
  let s ← settle t s
  accept t s k ""

def readEnd (t : OptionTable κ) (s : OptionReading κ) (fault : UsageFault) :
    Except UsageFault (OptionReading κ) := do
  let _ ← settle t s
  .error fault

/-- Splits an option from a value attached with an equals sign. -/
def splitAttached (text : List Char) : String × Option String :=
  match text.dropWhile (· ≠ '=') with
  | _ :: value =>
    (String.ofList (text.takeWhile (· ≠ '=')), some (String.ofList value))
  | [] => (String.ofList text, none)

def readLong (t : OptionTable κ) (s : OptionReading κ) (text : List Char) :
    Except UsageFault (OptionReading κ) :=
  let (name, attached) := splitAttached text
  match t.long? name, attached with
  | none, _ => .error .unknownArgument
  | some (.key k), attached => readKey t s k attached
  | some _, some _ => .error .tooManyValues
  | some (.flag k), none => readFlag t s k
  | some .help, none => readEnd t s .displayHelp
  | some .version, none => readEnd t s .displayVersion

def shortValue? : List Char → Option String
  | [] => none
  | '=' :: value => some (String.ofList value)
  | value => some (String.ofList value)

def readShort (t : OptionTable κ) (s : OptionReading κ) :
    List Char → Except UsageFault (OptionReading κ)
  | [] => .ok s
  | c :: rest =>
    match t.short? c with
    | none => .error .unknownArgument
    | some (.key k) => readKey t s k (shortValue? rest)
    | some (.flag k) =>
      match readFlag t s k with
      | .ok s => readShort t s rest
      | .error f => .error f
    | some .help => readEnd t s .displayHelp
    | some .version => readEnd t s .displayVersion

/-- Reads a word that is no option: the value of the last option, if that waits
for one. -/
def readValue (s : OptionReading κ) (word : String) :
    Except UsageFault (OptionReading κ) :=
  match s.pending with
  | some (k, none) => .ok { s with pending := some (k, some word) }
  | _ => .error .unknownArgument

/-- Whether the last option waits for a value and takes any word for it. -/
def takesAnyWord (t : OptionTable κ) (s : OptionReading κ) : Bool :=
  match s.pending with
  | some (k, none) => t.takesDash k
  | _ => false

def read (t : OptionTable κ) (s : OptionReading κ) (word : String) :
    Except UsageFault (OptionReading κ) :=
  if s.operandsOnly then .error .unknownArgument
  else if takesAnyWord t s then s.readValue word
  else
    match word.toList with
    | ['-', '-'] => .ok { s with operandsOnly := true }
    | '-' :: '-' :: text => readLong t s text
    | ['-'] => s.readValue word
    | '-' :: text => readShort t s text
    | _ => s.readValue word

def readAll (t : OptionTable κ) (s : OptionReading κ) :
    List String → Except UsageFault (OptionReading κ)
  | [] => settle t s
  | word :: rest => do
    let s ← read t s word
    readAll t s rest

end OptionReading
end CodeIntel
