import CodeIntel.Script.Word

/-!
# Commands of shell scripts
-/

namespace CodeIntel
namespace Script

structure Redirect where
  stream : Nat
  kind : RedirectKind
  target : Word
deriving DecidableEq, Repr

inductive Command where
  | simple (assignments : List (String × Word)) (words : List Word)
      (redirects : List Redirect)
  | seq (first second : Command)
  /-- The second command runs only if the first one succeeds. -/
  | both (first second : Command)
  /-- The second command runs only if the first one fails. -/
  | either (first second : Command)
  | pipe (first second : Command)
  /-- Repeats its body as long as the condition succeeds, or fails for a loop of
  the other kind. -/
  | loop (whileSuccess : Bool) (condition body : Command)
  | branch (condition yes no : Command)
  | forEach (name : String) (words : List Word) (body : Command)
  | negation (c : Command)
  | background (c : Command)
  | redirected (c : Command) (redirects : List Redirect)
  | subshell (c : Command)
  | nothing
deriving Repr

namespace Command

/-! # Simple commands -/

def assignment? (w : Word) : Option (String × Word) :=
  match w.pieces with
  | .text s :: rest =>
    let name := s.toList.takeWhile isNamePart
    match s.toList.dropWhile isNamePart with
    | '=' :: value =>
      if name.head?.any isNameStart then
        let first :=
          if value.isEmpty then [] else [Piece.text (String.ofList value)]
        some (String.ofList name, ⟨first ++ rest, w.isQuoted⟩)
      else none
    | _ => none
  | _ => none

/-- Reads the words of a simple command; assignments come before its name. -/
def simpleFrom (assignments : List (String × Word)) (words : List Word)
    (redirects : List Redirect) :
    List Token → Command × List Token
  | .redirect stream kind :: .word w :: rest =>
    simpleFrom assignments words (redirects ++ [⟨stream, kind, w⟩]) rest
  | .word w :: rest =>
    match words, assignment? w with
    | [], some a => simpleFrom (assignments ++ [a]) [] redirects rest
    | words, _ => simpleFrom assignments (words ++ [w]) redirects rest
  | rest => (.simple assignments words redirects, rest)

/-! # Reading -/

def dropBreaks : List Token → List Token
  | .operator ";" :: rest => dropBreaks rest
  | rest => rest

def keyword? : List Token → Option String
  | .word w :: _ => w.plain?
  | _ => none

def expect? (word : String) (ts : List Token) : Option (List Token) :=
  let ts := dropBreaks ts
  if keyword? ts = some word then some (ts.drop 1) else none

def closers : List String :=
  ["do", "done", "then", "elif", "else", "fi", "\x7d"]

def isEnd (ts : List Token) : Bool :=
  match ts with
  | [] | .operator ")" :: _ => true
  | ts => (keyword? ts).any closers.contains

def wordsFrom : List Token → List Word × List Token
  | .word w :: rest =>
    let (ws, rest) := wordsFrom rest
    (w :: ws, rest)
  | rest => ([], rest)

def isCompound : List Token → Bool
  | .operator "(" :: _ => true
  | ts => (keyword? ts).any ["while", "until", "if", "for", "\x7b"].contains

def redirectsFrom : List Token → List Redirect × List Token
  | .redirect stream kind :: .word w :: rest =>
    let (rs, rest) := redirectsFrom rest
    (⟨stream, kind, w⟩ :: rs, rest)
  | rest => ([], rest)

def withRedirects (c : Command) (ts : List Token) : Command × List Token :=
  match redirectsFrom ts with
  | ([], ts) => (c, ts)
  | (rs, ts) => (.redirected c rs, ts)

mutual

def list? : Nat → List Token → Option (Command × List Token)
  | 0, _ => none
  | fuel + 1, ts =>
    let ts := dropBreaks ts
    if isEnd ts then some (.nothing, ts)
    else do
      let (c, ts) ← chain? fuel ts
      match ts with
      | .operator ";" :: ts =>
        let (d, ts) ← list? fuel ts
        some (.seq c d, ts)
      | .operator "&" :: ts =>
        let (d, ts) ← list? fuel ts
        some (.seq (.background c) d, ts)
      | ts => if isEnd ts then some (c, ts) else none

def chain? : Nat → List Token → Option (Command × List Token)
  | 0, _ => none
  | fuel + 1, ts => do
    let (c, ts) ← pipeline? fuel ts
    joined? fuel c ts

def joined? : Nat → Command → List Token → Option (Command × List Token)
  | 0, _, _ => none
  | fuel + 1, c, ts =>
    match ts with
    | .operator "&&" :: ts => do
      let (d, ts) ← pipeline? fuel (dropBreaks ts)
      joined? fuel (.both c d) ts
    | .operator "||" :: ts => do
      let (d, ts) ← pipeline? fuel (dropBreaks ts)
      joined? fuel (.either c d) ts
    | ts => some (c, ts)

/-- Reads commands that are joined by pipes. An exclamation mark turns around
how they end. -/
def pipeline? : Nat → List Token → Option (Command × List Token)
  | 0, _ => none
  | fuel + 1, ts =>
    if keyword? ts = some "!" then do
      let (c, ts) ← pipeline? fuel (ts.drop 1)
      some (.negation c, ts)
    else do
      let (c, ts) ← command? fuel ts
      piped? fuel c ts

def piped? : Nat → Command → List Token → Option (Command × List Token)
  | 0, _, _ => none
  | fuel + 1, c, ts =>
    match ts with
    | .operator "|" :: ts => do
      let (d, ts) ← command? fuel (dropBreaks ts)
      piped? fuel (.pipe c d) ts
    | ts => some (c, ts)

def command? : Nat → List Token → Option (Command × List Token)
  | 0, _ => none
  | fuel + 1, ts =>
    match compound? fuel ts with
    | some (c, ts) => some (withRedirects c ts)
    | none =>
      let (c, rest) := simpleFrom [] [] [] ts
      if rest.length < ts.length ∧ !isCompound ts then some (c, rest) else none

def compound? : Nat → List Token → Option (Command × List Token)
  | 0, _ => none
  | fuel + 1, ts =>
    match ts with
    | .operator "(" :: ts => do
      match ← list? fuel ts with
      | (c, .operator ")" :: ts) => some (.subshell c, ts)
      | _ => none
    | ts =>
      match keyword? ts with
      | some "while" => loop? fuel true (ts.drop 1)
      | some "until" => loop? fuel false (ts.drop 1)
      | some "if" => branch? fuel (ts.drop 1)
      | some "for" => forEach? fuel (ts.drop 1)
      | some "\x7b" => do
        let (c, ts) ← list? fuel (ts.drop 1)
        some (c, ← expect? "\x7d" ts)
      | _ => none

def loop? : Nat → Bool → List Token → Option (Command × List Token)
  | 0, _, _ => none
  | fuel + 1, whileSuccess, ts => do
    let (condition, ts) ← list? fuel ts
    let (body, ts) ← list? fuel (← expect? "do" ts)
    some (.loop whileSuccess condition body, ← expect? "done" ts)

def branch? : Nat → List Token → Option (Command × List Token)
  | 0, _ => none
  | fuel + 1, ts => do
    let (condition, ts) ← list? fuel ts
    let (yes, ts) ← list? fuel (← expect? "then" ts)
    match keyword? ts with
    | some "elif" =>
      let (no, ts) ← branch? fuel (ts.drop 1)
      some (.branch condition yes no, ts)
    | some "else" =>
      let (no, ts) ← list? fuel (ts.drop 1)
      some (.branch condition yes no, ← expect? "fi" ts)
    | _ => some (.branch condition yes .nothing, ← expect? "fi" ts)

def forEach? : Nat → List Token → Option (Command × List Token)
  | 0, _ => none
  | fuel + 1, ts => do
    let name ← keyword? ts
    let (words, ts) := wordsFrom (← expect? "in" (ts.drop 1))
    let (body, ts) ← list? fuel (← expect? "do" ts)
    some (.forEach name words body, ← expect? "done" ts)

end

def parse? (script : String) : Option Command := do
  let ts ← tokens? script
  let (c, rest) ← list? (7 * ts.length + 10) ts
  if rest.isEmpty then some c else none

end Command
end Script
end CodeIntel
