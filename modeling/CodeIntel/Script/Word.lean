import CodeIntel.Text.Numeral

/-!
# Words of shell scripts

A script is divided into words, operators and redirections. Quotes join
characters to one word; a dollar sign stands for a value that is known when the
script runs.
-/

namespace CodeIntel
namespace Script

inductive Piece where
  | text (s : String)
  | variable (name : String)
  | arithmetic (expression : String)
deriving DecidableEq, Repr

/-- A word as a list of parts. Quotes make a word of nothing at all. -/
structure Word where
  pieces : List Piece
  isQuoted : Bool
deriving DecidableEq, Repr

inductive RedirectKind where
  | input
  | output
  /-- To where another stream leads, or nowhere at all. -/
  | duplicate
deriving DecidableEq, Repr

inductive Token where
  | word (w : Word)
  | operator (s : String)
  | redirect (stream : Nat) (kind : RedirectKind)
deriving DecidableEq, Repr

namespace Word

/-- The plain text of a word that nothing is quoted in. -/
def plain? (w : Word) : Option String :=
  match w.isQuoted, w.pieces with
  | false, [.text s] => some s
  | _, _ => none

end Word

/-! # Characters -/

def isNameStart (c : Char) : Bool :=
  c.isAlpha || c = '_'

def isNamePart (c : Char) : Bool :=
  isNameStart c || c.isDigit

def isSpecialName (c : Char) : Bool :=
  "?$#@*!-".toList.contains c || c.isDigit

def isBreak (c : Char) : Bool :=
  " \t\n;&|<>()".toList.contains c

/-! # Dollar signs -/

def expressionFrom (acc : List Char) :
    List Char → Option (List Char × List Char)
  | [] => none
  | ')' :: ')' :: rest => some (acc.reverse, rest)
  | c :: rest => expressionFrom (c :: acc) rest

def dollar : List Char → Piece × List Char
  | '(' :: '(' :: rest =>
    match expressionFrom [] rest with
    | some (e, rest) => (.arithmetic (String.ofList e), rest)
    | none => (.text "$", '(' :: '(' :: rest)
  | '\x7b' :: rest =>
    (.variable (String.ofList (rest.takeWhile (· ≠ '\x7d'))),
      (rest.dropWhile (· ≠ '\x7d')).drop 1)
  | c :: rest =>
    if isNameStart c then
      (.variable (String.ofList (c :: rest.takeWhile isNamePart)),
        rest.dropWhile isNamePart)
    else if isSpecialName c then (.variable (String.singleton c), rest)
    else (.text "$", c :: rest)
  | [] => (.text "$", [])

/-! # Words -/

/-- A word that is being read: its parts and the characters since the last of
them, both reversed. -/
structure OpenWord where
  pieces : List Piece := []
  current : List Char := []
  isQuoted : Bool := false
deriving DecidableEq, Repr

namespace OpenWord

def push (w : OpenWord) (c : Char) : OpenWord :=
  { w with current := c :: w.current }

def flush (w : OpenWord) : OpenWord :=
  if w.current.isEmpty then w
  else
    { w with pieces := .text (String.ofList
      w.current.reverse) :: w.pieces, current := [] }

def add (w : OpenWord) (p : Piece) : OpenWord :=
  let w := w.flush
  { w with pieces := p :: w.pieces }

def quoted (w : OpenWord) : OpenWord :=
  { w with isQuoted := true }

def close (w : OpenWord) : Word :=
  ⟨w.flush.pieces.reverse, w.isQuoted⟩

end OpenWord

def doubleQuoted (w : OpenWord) :
    Nat → List Char → Option (OpenWord × List Char)
  | 0, _ | _, [] => none
  | _ + 1, '"' :: rest => some (w, rest)
  | fuel + 1, '\\' :: c :: rest =>
    if "$\"\\".toList.contains c then doubleQuoted (w.push c) fuel rest
    else doubleQuoted ((w.push '\\').push c) fuel rest
  | fuel + 1, '$' :: rest =>
    let (p, rest) := dollar rest
    doubleQuoted (w.add p) fuel rest
  | fuel + 1, c :: rest => doubleQuoted (w.push c) fuel rest

def wordFrom (w : OpenWord) : Nat → List Char → Option (OpenWord × List Char)
  | 0, _ => none
  | _ + 1, [] => some (w, [])
  | fuel + 1, '\'' :: rest =>
    match rest.dropWhile (· ≠ '\'') with
    | _ :: after =>
      wordFrom ((rest.takeWhile (· ≠ '\'')).foldl OpenWord.push w.quoted)
        fuel after
    | [] => none
  | fuel + 1, '"' :: rest =>
    match doubleQuoted w.quoted (rest.length + 1) rest with
    | some (w, rest) => wordFrom w fuel rest
    | none => none
  | fuel + 1, '\\' :: c :: rest => wordFrom (w.quoted.push c) fuel rest
  | fuel + 1, '$' :: rest =>
    let (p, rest) := dollar rest
    wordFrom (w.add p) fuel rest
  | fuel + 1, c :: rest =>
    if isBreak c then some (w, c :: rest) else wordFrom (w.push c) fuel rest

/-! # Tokens -/

def redirect? (stream : Option Nat) : List Char → Option (Token × List Char)
  | '>' :: '&' :: rest => some (.redirect (stream.getD 1) .duplicate, rest)
  | '>' :: '>' :: rest | '>' :: rest =>
    some (.redirect (stream.getD 1) .output, rest)
  | '<' :: '&' :: rest => some (.redirect (stream.getD 0) .duplicate, rest)
  | '<' :: rest => some (.redirect (stream.getD 0) .input, rest)
  | _ => none

def operator? : List Char → Option (Token × List Char)
  | '&' :: '&' :: rest => some (.operator "&&", rest)
  | '|' :: '|' :: rest => some (.operator "||", rest)
  | '\n' :: rest | ';' :: rest => some (.operator ";", rest)
  | '&' :: rest => some (.operator "&", rest)
  | '|' :: rest => some (.operator "|", rest)
  | '(' :: rest => some (.operator "(", rest)
  | ')' :: rest => some (.operator ")", rest)
  | _ => none

/-- A redirection, which may begin with the digit of a stream. -/
def numberedRedirect? : List Char → Option (Token × List Char)
  | c :: rest =>
    if c.isDigit then redirect? (some (c.toNat - '0'.toNat)) rest
    else redirect? none (c :: rest)
  | [] => none

def tokensFrom : Nat → List Char → Option (List Token)
  | 0, _ => none
  | _ + 1, [] => some []
  | fuel + 1, c :: rest =>
    if c = ' ' ∨ c = '\t' then tokensFrom fuel rest
    else if c = '#' then tokensFrom fuel (rest.dropWhile (· ≠ '\n'))
    else
      match (numberedRedirect? (c :: rest)).or (operator? (c :: rest)) with
      | some (t, rest) => (tokensFrom fuel rest).map (t :: ·)
      | none =>
        match wordFrom {} (rest.length + 2) (c :: rest) with
        | some (w, rest) => (tokensFrom fuel rest).map (.word w.close :: ·)
        | none => none

def tokens? (script : String) : Option (List Token) :=
  tokensFrom (script.length + 1) script.toList

end Script
end CodeIntel
