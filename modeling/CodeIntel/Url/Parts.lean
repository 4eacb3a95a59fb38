import CodeIntel.Text.Dump
import CodeIntel.Url.Parser

/-!
# The parts of a URL

All parts of a normal form, and the URL written out by its parts.
-/

namespace CodeIntel
namespace Url

def scheme (u : Url) : List Char :=
  u.text.toList.takeWhile (· ≠ ':')

def isOpaque (u : Url) : Bool :=
  u.afterScheme.head? ≠ some '/'

def userInfo (u : Url) : List Char :=
  match u.splitAuthority.1 with
  | some authority =>
    if authority.contains '@' then authority.takeWhile (· ≠ '@') else []
  | none => []

def username (u : Url) : List Char :=
  u.userInfo.takeWhile (· ≠ ':')

def password? (u : Url) : Option (List Char) :=
  match u.userInfo.dropWhile (· ≠ ':') with
  | ':' :: password => some password
  | _ => none

def portText? (u : Url) : Option (List Char) := do
  let reversed := (← u.splitAuthority.1).reverse
  match reversed.dropWhile Char.isDigit with
  | ':' :: _ => some (reversed.takeWhile Char.isDigit).reverse
  | _ => none

def query? (u : Url) : Option (List Char) :=
  match u.splitAuthority.2.dropWhile fun c => c ≠ '?' && c ≠ '#' with
  | '?' :: rest => some (rest.takeWhile (· ≠ '#'))
  | _ => none

def fragment? (u : Url) : Option (List Char) :=
  match u.text.toList.dropWhile (· ≠ '#') with
  | '#' :: rest => some rest
  | _ => none

/-! # Written out -/

/-- An address of eight groups; one that stands for four numbers shows them. -/
def dumpAddress6 (groups : List Char) : String :=
  match Host.address6Groups? groups with
  | some [0, 0, 0, 0, 0, 0xFFFF, a, b] =>
    s!"::ffff:{a / 256}.{a % 256}.{b / 256}.{b % 256}"
  | _ => String.ofList groups

def dumpHost (u : Url) : String :=
  match u.host with
  | [] => "None"
  | '[' :: rest =>
    Dump.variant "Some" (Dump.variant "Ipv6" (dumpAddress6 rest.dropLast))
  | host =>
    if (schemeKind u.scheme).isSpecial && Host.endsInNumber host then
      Dump.variant "Some" (Dump.variant "Ipv4" (String.ofList host))
    else Dump.variant "Some" (Dump.variant "Domain" (Dump.quoted host))

def dump (u : Url) : String :=
  Dump.record "Url" [
    ("scheme", Dump.quoted u.scheme),
    ("cannot_be_a_base", toString u.isOpaque),
    ("username", Dump.quoted u.username),
    ("password", Dump.option Dump.quoted u.password?),
    ("host", u.dumpHost),
    ("port", Dump.option String.ofList u.portText?),
    ("path", Dump.quoted u.path),
    ("query", Dump.option Dump.quoted u.query?),
    ("fragment", Dump.option Dump.quoted u.fragment?)]

end Url
end CodeIntel
