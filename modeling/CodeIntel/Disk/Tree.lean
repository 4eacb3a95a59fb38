import CodeIntel.Disk.Error
import CodeIntel.Disk.Path

/-!
# Files, directories and links

A disk is a table of nodes by their places. A place is the list of names that
lead to it from the root; a path leads to a place once its links and dots are
resolved.
-/

namespace CodeIntel

abbrev FileName := List UInt8

inductive DiskNode where
  | file (bytes : List UInt8)
  | directory
  | link (target : FilePath)
deriving DecidableEq, Repr

structure Disk where
  nodes : List (List FileName × DiskNode)
  /-- The directory from which relative paths start. -/
  current : List FileName
  current_plain : ∀ name ∈ current, FilePath.IsPlain name
deriving Repr

namespace Disk

/-! # Nodes -/

/-- The node at a place. The root is always there. -/
def node? (d : Disk) (place : List FileName) : Option DiskNode :=
  if place = [] then some .directory
  else (d.nodes.find? fun e => e.1 = place).map Prod.snd

def put (d : Disk) (place : List FileName) (n : DiskNode) : Disk :=
  { d with nodes := (place, n) :: d.nodes.filter fun e => e.1 ≠ place }

def erase (d : Disk) (place : List FileName) : Disk :=
  { d with nodes := d.nodes.filter fun e => e.1 ≠ place }

theorem node?_put_self {place : List FileName} (h : place ≠ []) (d : Disk)
    (n : DiskNode) :
    (d.put place n).node? place = some n := by
  simp [put, node?, h]

theorem node?_put_of_ne {place other : List FileName} (h : other ≠ place)
    (d : Disk) (n : DiskNode) :
    (d.put place n).node? other = d.node? other := by
  have hf : (d.nodes.filter fun e => e.1 ≠ place).find? (fun e => e.1 = other) =
      d.nodes.find? fun e => e.1 = other := by
    induction d.nodes with
    | nil =>
        rfl
    | cons e rest ih =>
        by_cases he : e.1 = place
        · have ho : e.1 ≠ other := fun c => h (c.symm.trans he)
          simpa [List.filter, he, List.find?, ho, Ne.symm h] using ih
        · by_cases ho : e.1 = other
          · simp [List.filter, List.find?, ho, h]
          · simpa [List.filter, he, List.find?, ho] using ih
  simp only [put, node?]
  split
  · rfl
  · simp only [List.find?, Ne.symm h, decide_false]
    rw [hf]

/-! # Paths -/

inductive Target where
  | found (place : List FileName) (n : DiskNode)
  /-- Nothing is there yet, but its directory is. -/
  | missing (place : List FileName)
deriving Repr

def parent : FileName := [FilePath.dot, FilePath.dot]

def maxName : Nat := 255

def maxPath : Nat := 4096

/-- More links than this on the way of one path are taken for a loop. -/
def maxLinks : Nat := 40

def steps (p : FilePath) : List FileName :=
  p.names ++ (if p.bytes.getLast? =
    some FilePath.slash then [[FilePath.dot]] else [])

/-- Follows names from the place `here`, which is a directory given from its end
to the root. -/
def walk (d : Disk) (links : Nat) (here : List FileName)
    (todo : List FileName) :
    Except DiskError Target :=
  match todo with
  | [] => .ok (.found here.reverse .directory)
  | name :: rest =>
    if name = [FilePath.dot] then walk d links here rest
    else if name = parent then walk d links here.tail rest
    else if maxName < name.length then .error .nameTooLong
    else
      let place := (name :: here).reverse
      match d.node? place with
      | none => if rest = [] then .ok (.missing place) else .error .noSuchFile
      | some .directory => walk d links (name :: here) rest
      | some (.file bytes) =>
        if rest = [] then .ok (.found place (.file bytes))
        else .error .notADirectory
      | some (.link target) =>
        match links with
        | 0 => .error .tooManyLinks
        | links + 1 =>
          walk d links (if target.isAbsolute then [] else here)
            (steps target ++ rest)
termination_by (links, todo.length)

def locate (d : Disk) (p : FilePath) : Except DiskError Target :=
  if p.bytes.contains 0 then .error .invalidArgument
  else if p.bytes.isEmpty then .error .noSuchFile
  else if maxPath ≤ p.bytes.length then .error .nameTooLong
  else d.walk maxLinks (if p.isAbsolute then [] else d.current.reverse)
    (steps p)

/-! # Operations -/

/-- The path without links, dots and detours. -/
def realPath (d : Disk) (p : FilePath) : Except DiskError FilePath :=
  match d.locate p with
  | .ok (.found place _) => .ok (.ofComponents place)
  | .ok (.missing _) => .error .noSuchFile
  | .error e => .error e

def read (d : Disk) (p : FilePath) : Except DiskError (List UInt8) :=
  match d.locate p with
  | .ok (.found _ (.file bytes)) => .ok bytes
  | .ok (.found _ _) => .error .isADirectory
  | .ok (.missing _) => .error .noSuchFile
  | .error e => .error e

def readText (d : Disk) (p : FilePath) : Except DiskError String :=
  match d.read p with
  | .ok bytes =>
    match Utf8.decode? bytes with
    | some text => .ok text
    | none => .error .notText
  | .error e => .error e

def write (d : Disk) (p : FilePath) (bytes : List UInt8) :
    Except DiskError Disk :=
  match d.locate p with
  | .ok (.found place (.file _)) => .ok (d.put place (.file bytes))
  | .ok (.found _ _) => .error .isADirectory
  | .ok (.missing place) => .ok (d.put place (.file bytes))
  | .error e => .error e

def writeText (d : Disk) (p : FilePath) (text : String) :
    Except DiskError Disk :=
  d.write p (Utf8.encode text)

/-- The place of the entry that a path names: a link at its end is not
followed. -/
def ownPlace? (d : Disk) (p : FilePath) : Option (List FileName) :=
  let start := if p.isAbsolute then [] else d.current.reverse
  match (steps p).reverse with
  | [] => none
  | last :: front =>
    match d.walk maxLinks start front.reverse with
    | .ok (.found place .directory) =>
      if last = [FilePath.dot] ∨ last = parent then none
      else some (place ++ [last])
    | _ => none

/-- Removes a file or a link; directories stay. -/
def remove? (d : Disk) (p : FilePath) : Option Disk :=
  (d.ownPlace? p).bind fun place =>
    match d.node? place with
    | some (.file _) | some (.link _) => some (d.erase place)
    | _ => none

/-! # Building -/

def makeParents (d : Disk) (done : List FileName) : List FileName → Disk
  | [] => d
  | [_] => d
  | name :: rest =>
    let place := done ++ [name]
    let d := if (d.node? place).isSome then d else d.put place .directory
    makeParents d place rest

def install (d : Disk) (place : List FileName) (n : DiskNode) : Disk :=
  (d.makeParents [] place).put place n

/-- The place that a path names if none of its names is a link. -/
def plainPlace (d : Disk) (p : FilePath) : List FileName :=
  let start := if p.isAbsolute then [] else d.current.reverse
  (p.components.foldl (fun here name =>
    if name = parent then here.tail else name :: here) start).reverse

/-- Provides a node at a path, and the directories that lead there. A file is
written through a link. -/
def provide (d : Disk) (p : FilePath) (n : DiskNode) : Disk :=
  let place := d.plainPlace p
  match n with
  | .file bytes =>
    match (d.makeParents [] place).write p bytes with
    | .ok d => d
    | .error _ => d.install place n
  | n => d.install place n

def changedFiles (d before : Disk) : List (FilePath × List UInt8) :=
  d.nodes.filterMap fun (place, n) =>
    match n with
    | .file bytes =>
      if before.node? place = some n then none
      else some (.ofComponents place, bytes)
    | _ => none

/-- A disk whose only directories are those that lead to the current one. -/
def empty (current : FilePath) : Disk :=
  let place := current.components.filter fun name => FilePath.IsPlain name
  let bare : Disk :=
    { nodes := []
      current := place
      current_plain := fun _ h => of_decide_eq_true (List.mem_filter.mp h).2 }
  bare.install place .directory

end Disk
end CodeIntel
