import CodeIntel.Agent.Program
import CodeIntel.Mock.Process
import CodeIntel.Script.Program

/-!
# Serving an agent over standard input and output

Each line of the input is a message, each answer is a line of the output. The
language servers are those of the library: the scripted server by its name, and
the few programs whose answers are known. What they see is the workspace as it
was read when the program started; what a tool has written goes back to the
files after each message.
-/

namespace CodeIntel
namespace Program

/-! # Files -/

def readFile (disk : Disk) (path : String) : IO Disk := do
  try
    let bytes ← IO.FS.readBinFile path
    return disk.provide (.ofString path) (.file bytes.toList)
  catch _ =>
    return disk

def readTree (depth : Nat) (disk : Disk) (entry : IO.FS.DirEntry) :
    IO Disk := do
  match depth with
  | 0 => return disk
  | depth + 1 =>
    if ← entry.path.isDir then
      let disk := disk.provide (.ofString entry.path.toString) .directory
      (← entry.path.readDir).foldlM (readTree depth) disk
    else
      readFile disk entry.path.toString

/-- Deeper directories than this are not read. -/
def maxDepth : Nat := 64

/-- The disk as the words behind the name of the program need it: with the
workspace and with the files that the arguments of the server name. -/
def readDisk (words : List String) : IO Disk := do
  let current ← IO.currentDir
  let disk := Disk.empty (.ofString current.toString)
  match CommandLine.parse words with
  | .error _ => return disk
  | .ok line =>
    let workspace :=
      FilePath.joinTo (.ofString current.toString) (.ofString line.workspace)
    let disk ← readTree maxDepth disk
      { root := workspace.text, fileName := "." }
    line.serverArgs.foldlM readFile disk

def writeChanges (before after : Disk) : IO Unit :=
  (after.changedFiles before).forM fun (path, bytes) =>
    IO.FS.writeBinFile path.text ⟨bytes.toArray⟩

/-! # Messages -/

/-- Serves the lines of the input until it or the session ends. -/
partial def serveLines (σ : Type) (input output : IO.FS.Stream)
  (s : AgentSession σ) :
    IO (Outcome σ) := do
  let line ← input.getLine
  if line.isEmpty then
    return conclude [] s.finish s.client
  match Json.parse? line with
  | none => return conclude [] s.finish s.client
  | some v =>
    match s.step v with
    | .ends served => return conclude [] served s.client
    | .goesOn sent next =>
      for answer in sent do
        output.putStrLn answer.render
        output.flush
      writeChanges s.client.disk next.client.disk
      serveLines σ input output next

/-- Says how the program has ended, and gives its exit code. -/
def conveyEnd (e : ProgramEnd) : IO UInt32 := do
  for line in e.lines do
    IO.eprintln line
  return UInt32.ofNat e.exitCode

def serveAgent (σ : Type) (disk : Disk) (config : Config)
    (process : Except String (Peer σ)) :
    IO UInt32 := do
  match openSession disk config process with
  | .error e => conveyEnd e
  | .ok s =>
    let outcome ← serveLines σ (← IO.getStdin) (← IO.getStdout) s
    conveyEnd outcome.ended

def scriptedServer : String := "mockls"

def main (words : List String) : IO UInt32 := do
  let disk ← readDisk words
  match configure disk words with
  | .error e => conveyEnd e
  | .ok config =>
    if config.command = scriptedServer then
      serveAgent _ disk config (.ok (Mock.peer disk config.args))
    else if Script.isEcho config.command config.args then
      serveAgent _ disk config (.ok Script.echo)
    else
      serveAgent _ disk config (Script.start disk config.command config.args)

end Program
end CodeIntel

def main (words : List String) : IO UInt32 :=
  CodeIntel.Program.main words
