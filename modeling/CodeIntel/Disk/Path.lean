import CodeIntel.Text.Utf8

/-!
# File paths

A path is a byte sequence whose components are separated by slashes. What is
shown of it is its text, with replacement marks where it is not UTF-8.
-/

namespace CodeIntel

structure FilePath where
  bytes : List UInt8
deriving DecidableEq, Repr, Inhabited

namespace FilePath

def slash : UInt8 := 0x2F

def dot : UInt8 := 0x2E

/-- A name that names an entry: it is not empty, holds no slash and is none of
the dots. -/
def IsPlain (name : List UInt8) : Prop :=
  name ≠ [] ∧ slash ∉ name ∧ name ≠ [dot] ∧ name ≠ [dot, dot]

instance (name : List UInt8) : Decidable (IsPlain name) :=
  inferInstanceAs (Decidable (_ ∧ _))

def ofString (s : String) : FilePath :=
  ⟨Utf8.encode s⟩

def text (p : FilePath) : String :=
  Utf8.lossy p.bytes

def isAbsolute (p : FilePath) : Bool :=
  p.bytes.head? = some slash

/-- The pieces between the slashes, empty ones included. -/
def piecesFrom (current : List UInt8) : List UInt8 → List (List UInt8)
  | [] => [current.reverse]
  | b :: rest =>
    if b = slash then current.reverse :: piecesFrom [] rest
    else piecesFrom (b :: current) rest

def names (p : FilePath) : List (List UInt8) :=
  (piecesFrom [] p.bytes).filter fun n => !n.isEmpty

def components (p : FilePath) : List (List UInt8) :=
  p.names.filter (· ≠ [dot])

def ofComponents : List (List UInt8) → FilePath
  | [] => ⟨[slash]⟩
  | names => ⟨names.flatMap (slash :: ·)⟩

/-- Resolves `p` against the directory `base`: an absolute path stands for
itself. -/
def joinTo (base p : FilePath) : FilePath :=
  if p.isAbsolute then p
  else if base.bytes.getLast? = some slash then ⟨base.bytes ++ p.bytes⟩
  else ⟨base.bytes ++ slash :: p.bytes⟩

def fileName? (p : FilePath) : Option (List UInt8) :=
  match p.components.getLast? with
  | some n => if n = [dot, dot] then none else some n
  | none => none

/-- The part of the file name after its last dot, unless that dot is its first
character. -/
def extension? (p : FilePath) : Option (List UInt8) :=
  match p.fileName? with
  | none => none
  | some n =>
    let tail := n.reverse.takeWhile (· ≠ dot)
    if tail.length + 1 < n.length then some tail.reverse else none

end FilePath
end CodeIntel
