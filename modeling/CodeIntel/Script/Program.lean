import CodeIntel.Disk.Tree
import CodeIntel.Script.Run

/-!
# Starting programs

A program is found by its path, or by its name among a few that every system
has. Files of the workspace are no programs.
-/

namespace CodeIntel
namespace Script

/-- The programs that are known by name, and the scripts that do what they do
without arguments. -/
def programs : List (String × String) :=
  [("true", "exit 0"), ("false", "exit 1"), ("echo", "echo"),
    ("sleep", "exit 1"), ("printf", "exit 2"),
    ("pwd", "exit 0"), ("sh", "cat"), ("bash", "cat"), ("sort", "cat"),
    ("wc", "cat"), ("tail", "cat"),
    ("head", "cat"), ("env", "exit 0"), ("ls", "exit 0"), ("kill", "exit 1"),
    ("test", "exit 1"), ("cat", "exit 1")]

def programDirectories : List String :=
  ["/bin/", "/usr/bin/"]

/-- Whether a command is a program, given by name or by its path in one of the
usual directories. -/
def names (command program : String) : Bool :=
  command = program || programDirectories.any fun d => command = d ++ program

/-- The shells, which run the script behind `-c`. -/
def shells : List String :=
  ["sh", "bash"]

/-- The programs that a shell knows as commands, and so with their arguments. -/
def builtins : List String :=
  ["true", "false", "echo", "sleep", "printf", "test"]

def programPeer (name script : String) (args : List String) : Peer Plan :=
  match args with
  | "-c" :: text :: _ => if shells.contains name then peer text else called
  | _ => called
where
  called : Peer Plan :=
    if args ≠ [] ∧ builtins.contains name then
      peerOf (.simple [] ((name :: args).map fun word =>
        ⟨[.text word], true⟩) [])
    else peer script

def program? (command : String) (args : List String) : Option (Peer Plan) :=
  (programs.find? fun p => names command p.1).map fun (name, script) =>
    programPeer name script args

def isPath (command : String) : Bool :=
  command.toList.contains '/'

def pathFault (disk : Disk) (command : String) : DiskError :=
  match disk.locate (.ofString command) with
  | .ok (.found _ _) => .permissionDenied
  | .ok (.missing _) => .noSuchFile
  | .error e => e

def startFault (disk : Disk) (command : String) : DiskError :=
  if isPath command then pathFault disk command
  else if command = "." ∨ command = ".." then .permissionDenied
  else .noSuchFile

def start (disk : Disk) (command : String) (args : List String) :
    Except String (Peer Plan) :=
  match program? command args with
  | some process => .ok process
  | none =>
    if command.toList.contains '\x00' then
      .error "nul byte found in provided data"
    else .error (startFault disk command).message

/-! # Echoes -/

def isEcho (command : String) (args : List String) : Bool :=
  names command "cat" && args.all (· = "-")

def echo : Peer Unit where
  state := ()
  react now frame _ := ([(now, .send frame)], ())

end Script
end CodeIntel
