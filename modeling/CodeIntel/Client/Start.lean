import CodeIntel.Client.Handshake
import CodeIntel.Client.Teardown

/-!
# Starting a client
-/

namespace CodeIntel
namespace Client

variable {σ : Type}

def locateRoot (disk : Disk) (config : Config) : Except ClientFault FilePath :=
  match disk.realPath config.root with
  | .ok root => .ok root
  | .error e =>
    .error (.initializationFailed
      (s!"failed to canonicalize workspace root '{config.root.text}': " ++
        e.message))

/-- A client for a process, or for the reason why the process could not be
started. The workspace is looked for before the process is started. -/
def start (disk : Disk) (config : Config) (process : Except String (Peer σ)) :
    Except ClientFault (Client σ) :=
  match locateRoot disk config, process with
  | .error f, _ => .error f
  | .ok _, .error reason =>
    .error (.transport (.spawnFailed config.command reason))
  | .ok root, .ok peer =>
    .ok { config := config, root := root, disk := disk, peer := peer }

/-- Starts a client and performs the handshake; a client that fails to is
closed. -/
def open_ (disk : Disk) (config : Config) (process : Except String (Peer σ)) :
    Except ClientFault (Client σ) :=
  match start disk config process with
  | .error f => .error f
  | .ok c =>
    match handshake c with
    | (.ok (), c) => .ok c
    | (.error f, _) => .error f

end Client
end CodeIntel
