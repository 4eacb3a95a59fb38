import CodeIntel.Url.Basic
import CodeIntel.Url.Host

/-!
# Reading URLs

Absolute URLs only. A scheme with rules of its own has a host and a path of
names in which dots and double dots are resolved; other schemes may have an
opaque path.
-/

namespace CodeIntel
namespace Url

/-! # Schemes -/

inductive SchemeKind where
  | file
  /-- The other schemes whose URLs always have a host. -/
  | special
  | other
deriving DecidableEq

def SchemeKind.isSpecial (k : SchemeKind) : Bool :=
  k ≠ .other

def schemeKind (scheme : List Char) : SchemeKind :=
  if scheme = "file".toList then .file
  else if ["http", "https", "ws", "wss", "ftp"].any (·.toList = scheme) then
    .special
  else .other

def defaultPort (scheme : List Char) : Option Nat :=
  if scheme = "http".toList || scheme = "ws".toList then some 80
  else if scheme = "https".toList || scheme = "wss".toList then some 443
  else if scheme = "ftp".toList then some 21
  else none

def isAsciiLetter (c : Char) : Bool :=
  ('a' ≤ c && c ≤ 'z') || ('A' ≤ c && c ≤ 'Z')

def isSchemeChar (c : Char) : Bool :=
  isAsciiLetter c || ('0' ≤ c && c ≤ '9') || c = '+' || c = '-' || c = '.'

/-- The scheme in lower case and what follows its colon. -/
def scheme? (s : List Char) : Option (List Char × List Char) :=
  match s with
  | c :: _ =>
    if isAsciiLetter c then
      match s.dropWhile isSchemeChar with
      | ':' :: rest => some (Host.lowerAscii (s.takeWhile isSchemeChar), rest)
      | _ => none
    else none
  | [] => none

/-! # Paths of names -/

def isSeparator (kind : SchemeKind) (c : Char) : Bool :=
  c = '/' || (c = '\\' && kind.isSpecial)

def endsPath (c : Char) : Bool :=
  c = '?' || c = '#'

def isDrive (marks : List Char) : List Char → Bool
  | [c, mark] => isAsciiLetter c && marks.contains mark
  | _ => false

def startsWithDrive : List Char → Bool
  | c :: mark :: rest =>
    isAsciiLetter c && (mark = ':' || mark = '|') &&
      (match rest with
      | [] => true
      | d :: _ => d = '/' || d = '\\' || d = '?' || d = '#')
  | _ => false

def fromLastSlash (path : List Char) : List Char :=
  let name := (path.reverse.takeWhile (· ≠ '/')).reverse
  if name.length < path.length then '/' :: name else name

def endsWithSlash (path : List Char) : Bool :=
  path.getLast? = some '/'

/-- Drops a final slash, but neither the root's nor a drive's. -/
def dropFinalSlash (path : List Char) : List Char :=
  let front := path.dropLast
  if endsWithSlash path && front.contains '/' &&
    !startsWithDrive ((fromLastSlash front ++ ['/']).drop 1)
  then front else path

def dropName (kind : SchemeKind) (path : List Char) : List Char :=
  let name := (fromLastSlash path).drop 1
  if path.isEmpty || (kind = .file && isDrive [':'] name) then path
  else path.take (path.length - name.length)

def addSlash (path : List Char) : List Char :=
  if endsWithSlash path then path else path ++ ['/']

def isDouble (segment : List Char) : Bool :=
  [['.', '.'], "%2e%2e".toList, "%2e.".toList, ".%2e".toList].any
    (· = Host.lowerAscii segment)

def isSingle (segment : List Char) : Bool :=
  [['.'], "%2e".toList].any (· = Host.lowerAscii segment)

structure PathState where
  path : List Char
  hasHost : Bool

/-- Appends one written segment, resolving dots; `slash` tells whether a
separator follows it. -/
def pushSegment (kind : SchemeKind) (st : PathState) (segment : List Char)
    (slash : Bool) : PathState :=
  if isDouble segment then
    let path := dropName kind (dropFinalSlash st.path)
    { st with path := if slash then addSlash path else path }
  else if isSingle segment then { st with path := addSlash st.path }
  else
    let tail := if slash then ['/'] else []
    if kind = .file && st.path.length = 1 && isDrive [':', '|'] segment then
      ⟨st.path ++ segment.take 1 ++ [':'] ++ tail, false⟩
    else { st with path := st.path ++ segment ++ tail }

def readSegments (kind : SchemeKind) (st : PathState) :
    Nat → List Char → PathState × List Char
  | 0, rest => (st, rest)
  | fuel + 1, s =>
    let stops (c : Char) := isSeparator kind c || endsPath c
    let segment := Percent.encodeText Percent.inPath (s.takeWhile (!stops ·))
    match s.dropWhile (!stops ·) with
    | c :: rest =>
      if endsPath c then (pushSegment kind st segment false, c :: rest)
      else readSegments kind (pushSegment kind st segment true) fuel rest
    | [] => (pushSegment kind st segment false, [])

/-- Reads a path behind what is there of it already. The path of a file starts
with one slash. -/
def readPath (kind : SchemeKind) (start : List Char) (hasHost : Bool)
    (s : List Char) :
    PathState × List Char :=
  let (st, rest) := readSegments kind ⟨start, hasHost⟩ (s.length + 1) s
  if kind = .file then ({ st with path := '/' :: st.path.dropWhile (· = '/') },
    rest) else (st, rest)

def readPathStart (kind : SchemeKind) (hasHost : Bool) (s : List Char) :
    PathState × List Char :=
  if kind.isSpecial then
    match s with
    | c :: rest => if isSeparator kind c then readPath kind ['/'] hasHost rest
      else readPath kind ['/'] hasHost s
    | [] => readPath kind ['/'] hasHost []
  else
    match s with
    | [] => (⟨[], hasHost⟩, [])
    | c :: _ =>
      if endsPath c then (⟨[], hasHost⟩, s)
      else if c = '/' then readPath kind [] hasHost s
      else readPath kind ['/'] hasHost s

/-! # Query and fragment -/

def queryAndFragment (kind : SchemeKind) : List Char → List Char
  | '?' :: rest =>
    let set :=
      if kind.isSpecial then Percent.inSpecialQuery else Percent.inQuery
    let query := '?' :: Percent.encodeText set (rest.takeWhile (· ≠ '#'))
    match rest.dropWhile (· ≠ '#') with
    | '#' :: fragment =>
      query ++ '#' :: Percent.encodeText Percent.inFragment fragment
    | _ => query
  | '#' :: fragment => '#' :: Percent.encodeText Percent.inFragment fragment
  | _ => []

/-! # Authority -/

/-- User and password in front of the last at sign, and what follows it. -/
def userInfo? (kind : SchemeKind) (s : List Char) :
    Option (List Char × List Char) :=
  let stops (c : Char) := isSeparator kind c || endsPath c
  let authority := s.takeWhile (!stops ·)
  let after := s.dropWhile (!stops ·)
  if !authority.contains '@' then some ([], s)
  else
    let host := (authority.reverse.takeWhile (· ≠ '@')).reverse
    let info := authority.take (authority.length - host.length - 1)
    let rest := host ++ after
    if info.isEmpty then
      if host.isEmpty && !after.isEmpty then none else some ([], rest)
    else
      let user := info.takeWhile (· ≠ ':')
      let password := (info.dropWhile (· ≠ ':')).drop 1
      let written := Percent.encodeText Percent.inUserInfo user ++
        (if password.isEmpty then []
          else ':' :: Percent.encodeText Percent.inUserInfo password)
      some (if user.isEmpty && password.isEmpty then [] else written ++ ['@'],
        rest)

/-- The characters up to the end of a host; a colon in brackets does not end
it. -/
def hostChars (kind : SchemeKind) (inside : Bool) :
    List Char → List Char × List Char
  | [] => ([], [])
  | c :: rest =>
    if (c = ':' && !inside) || isSeparator kind c || endsPath c then
      ([], c :: rest)
    else
      let inside := if c = '[' then true else if c = ']' then false else inside
      let (host, rest) := hostChars kind inside rest
      (c :: host, rest)

/-- The port if it is not the scheme's own, and what follows. -/
def port? (scheme : List Char) : List Char → Option (List Char × List Char)
  | ':' :: s =>
    let digits := s.takeWhile Char.isDigit
    let rest := s.dropWhile Char.isDigit
    let n := digits.foldl (fun n c => n * 10 + (c.toNat - 48)) 0
    let ends := match rest with
      | [] => true
      | c :: _ => c = '/' || c = '\\' || endsPath c
    if 65535 < n || !ends then none
    else if digits.isEmpty || some n = defaultPort scheme then some ([], rest)
    else some (':' :: (toString n).toList, rest)
  | s => some ([], s)

def withAuthority? (kind : SchemeKind) (scheme s : List Char) :
    Option (List Char) := do
  let (info, s) ← userInfo? kind s
  let (hostText, s) := hostChars kind false s
  if kind = .special && hostText.isEmpty then none
  let host ← if kind.isSpecial then Host.special? hostText
    else Host.opaque? hostText
  if host.isEmpty && (s.head? = some ':' || !info.isEmpty) then none
  let (port, s) ← port? scheme s
  let (st, rest) := readPathStart kind true s
  some ('/' :: '/' ::
    (info ++ host ++ port ++ st.path ++ queryAndFragment kind rest))

/-- What stands behind two slashes of a file URL. The host `localhost` is no
host, and neither is a drive. -/
def withFileHost? (s : List Char) : Option (List Char) := do
  let stops (c : Char) := isSeparator .file c || endsPath c
  let hostText := s.takeWhile (!stops ·)
  let after := s.dropWhile (!stops ·)
  if hostText.isEmpty || isDrive [':', '|'] hostText then
    let (st, rest) :=
      readPath .file ['/'] false (if hostText.isEmpty then after else s)
    some ('/' :: '/' :: (st.path ++ queryAndFragment .file rest))
  else
    let host ← Host.special? hostText
    if host = "localhost".toList then
      let (st, rest) := readPath .file ['/'] false after
      some ('/' :: '/' :: (st.path ++ queryAndFragment .file rest))
    else
      let (st, rest) := readPathStart .file true after
      some ('/' :: '/' :: ((if st.hasHost then host else []) ++ st.path ++
        queryAndFragment .file rest))

def afterFile? (s : List Char) : Option (List Char) :=
  match s with
  | c :: d :: rest =>
    if isSeparator .file c && isSeparator .file d then withFileHost? rest
    else
      let (st, rest) :=
        readPath .file (if isSeparator .file c then [] else ['/']) false s
      some ('/' :: '/' :: (st.path ++ queryAndFragment .file rest))
  | _ =>
    let (st, rest) :=
      readPath .file (if s.any (isSeparator .file) then [] else ['/']) false s
    some ('/' :: '/' :: (st.path ++ queryAndFragment .file rest))

/-- What stands behind another scheme. A path without a host that starts with
two slashes is kept apart from a host. -/
def afterOther? (scheme s : List Char) : Option (List Char) :=
  match s with
  | '/' :: '/' :: rest => withAuthority? .other scheme rest
  | '/' :: rest =>
    let (st, rest) := readPath .other ['/'] false rest
    let path := match st.path with
      | '/' :: '/' :: more => '/' :: '.' :: '/' :: '/' :: more
      | path => path
    some (path ++ queryAndFragment .other rest)
  | _ =>
    let path := Percent.encodeText Percent.isControl (s.takeWhile (!endsPath ·))
    some (path ++ queryAndFragment .other (s.dropWhile (!endsPath ·)))

/-! # Whole URLs -/

def isOuter (c : Char) : Bool :=
  c.toNat ≤ 0x20

/-- The characters that count: no blanks around the URL, no tabs and line ends
in it. -/
def cleaned (s : List Char) : List Char :=
  let s := ((s.dropWhile isOuter).reverse.dropWhile isOuter).reverse
  s.filter fun c => c ≠ '\t' && c ≠ '\n' && c ≠ '\r'

/-- Reads an absolute URL into its normal form. -/
def parse? (text : String) : Option Url := do
  let (scheme, rest) ← scheme? (cleaned text.toList)
  let kind := schemeKind scheme
  let tail ← match kind with
    | .file => afterFile? rest
    | .special =>
      withAuthority? .special scheme (rest.dropWhile fun c =>
        c = '/' || c = '\\')
    | .other => afterOther? scheme rest
  some ⟨String.ofList (scheme ++ ':' :: tail)⟩

end Url
end CodeIntel
