import CodeIntel.Disk.Path
import CodeIntel.Url.Percent

/-!
# URLs

A URL is its normalized text, so that equality and order are those of texts. The
parts are found again by the marks that the normal form keeps for them.
-/

namespace CodeIntel

structure Url where
  text : String
deriving DecidableEq, Repr, Inhabited

namespace Url

def afterScheme (u : Url) : List Char :=
  (u.text.toList.dropWhile (· ≠ ':')).drop 1

/-- User, host and port, if the URL has them, and what follows. -/
def splitAuthority (u : Url) : Option (List Char) × List Char :=
  match u.afterScheme with
  | '/' :: '/' :: rest =>
    let ends (c : Char) := c = '/' || c = '?' || c = '#'
    (some (rest.takeWhile (!ends ·)), rest.dropWhile (!ends ·))
  | '/' :: '.' :: '/' :: '/' :: rest => (none, '/' :: '/' :: rest)
  | rest => (none, rest)

def host (u : Url) : List Char :=
  match u.splitAuthority.1 with
  | none => []
  | some authority =>
    let hostAndPort := (authority.reverse.takeWhile (· ≠ '@')).reverse
    match hostAndPort with
    | '[' :: _ => hostAndPort.takeWhile (· ≠ ']') ++ [']']
    | _ => hostAndPort.takeWhile (· ≠ ':')

def path (u : Url) : List Char :=
  u.splitAuthority.2.takeWhile fun c => c ≠ '?' && c ≠ '#'

def isLetter (b : UInt8) : Bool :=
  (0x41 ≤ b && b ≤ 0x5A) || (0x61 ≤ b && b ≤ 0x7A)

/-- A path that ends in a letter and a colon or bar gets a slash, lest the last
name be a drive. -/
def closeDrive (bytes : List UInt8) : List UInt8 :=
  match bytes.reverse with
  | mark :: letter :: _ :: _ =>
    if isLetter letter && (mark = 0x3A || mark = 0x7C) then
      bytes ++ [FilePath.slash] else bytes
  | _ => bytes

/-- The file that the URL names, if its path is a list of names on this host. -/
def filePath? (u : Url) : Option FilePath :=
  if u.host = [] ∨ u.host = "localhost".toList then
    match u.path with
    | '/' :: rest =>
      some ⟨closeDrive
        (Percent.decode (Utf8.encode (String.ofList ('/' :: rest))))⟩
    | _ => none
  else none

/-- The file that the URL names, or else its text taken as a path. -/
def toPath (u : Url) : FilePath :=
  u.filePath?.getD (FilePath.ofString u.text)

/-- The URL of an absolute path. Names that lead nowhere are left out, each
other one is escaped. -/
def ofPath? (p : FilePath) : Option Url :=
  if p.isAbsolute then
    let path := match p.components with
      | [] => ['/']
      | names =>
        names.flatMap fun n => '/' :: Percent.encode Percent.inFileName n
    some ⟨"file://" ++ String.ofList path⟩
  else none

end Url
end CodeIntel
