import CodeIntel.Text.Compose
import CodeIntel.Text.Lowercase
import CodeIntel.Url.Punycode

/-!
# Domains

A domain is a list of labels with dots between them. Its normal form has small
letters only, one character for all that look alike, and each label in ASCII.
-/

namespace CodeIntel
namespace Domain

/-! # Labels -/

def splitOn (sep : Char) : List Char → List (List Char)
  | [] => [[]]
  | c :: rest =>
    match splitOn sep rest with
    | [] => [[c]]
    | piece :: pieces =>
      if c = sep then [] :: piece :: pieces else (c :: piece) :: pieces

def join (labels : List (List Char)) : List Char :=
  ['.'].intercalate labels

def inRanges (ranges : List (Nat × Nat)) (c : Char) : Bool :=
  ranges.any fun (first, last) => first ≤ c.toNat && c.toNat ≤ last

/-! # Plain characters -/

/-- The characters that a domain is read without: hyphens for line breaks,
joiners of words, and choices among the forms of a character. -/
def ignored : List (Nat × Nat) :=
  [(0xAD, 0xAD), (0x34F, 0x34F), (0x180B, 0x180D), (0x180F, 0x180F),
    (0x200B, 0x200B), (0x2060, 0x2060), (0x2064, 0x2064), (0xFE00, 0xFE0F),
    (0xFEFF, 0xFEFF), (0xE0100, 0xE01EF)]

def dots : List Char :=
  ['。', '．', '｡']

/-- Runs of characters that stand for plain ones: first and last code point, and
the first plain character. -/
def plainRuns : List (Nat × Nat × Char) :=
  [(0xAA, 0xAA, 'a'), (0xB2, 0xB3, '2'), (0xB5, 0xB5, 'μ'), (0xB9, 0xB9, '1'),
    (0xBA, 0xBA, 'o'), (0x17F, 0x17F, 's'), (0x2070, 0x2070, '0'),
    (0x2071, 0x2071, 'i'), (0x2074, 0x2079, '4'),
    (0x207F, 0x207F, 'n'), (0x2080, 0x2089, '0'), (0x2113, 0x2113, 'l'),
    (0x2460, 0x2468, '1'), (0x24B6, 0x24CF, 'a'), (0x24D0, 0x24E9, 'a'),
    (0x24EA, 0x24EA, '0'), (0xFF01, 0xFF5E, '!'), (0xAB70, 0xABBF, 'Ꭰ')]

def styledLetters : Nat × Nat :=
  (0x1D400, 0x1D6A3)

def styledDigits : Nat × Nat :=
  (0x1D7CE, 0x1D7FF)

def spelledOut : List (Char × String) :=
  [('¼', "1⁄4"), ('½', "1⁄2"), ('¾', "3⁄4"), ('İ', "i\u0307"), ('ĳ', "ij"),
    ('Ĳ', "ij"), ('ŉ', "ʼn"), ('ǆ', "dž"), ('ǅ', "dž"), ('Ǆ', "dž"),
    ('ǉ', "lj"), ('ǈ', "lj"), ('Ǉ', "lj"), ('ǌ', "nj"),
    ('ǋ', "nj"), ('Ǌ', "nj"), ('ǳ', "dz"), ('ǲ', "dz"), ('Ǳ', "dz"),
    ('№', "no"), ('℠', "sm"), ('℡', "tel"), ('™', "tm"), ('…', "..."),
    ('ﬀ', "ff"), ('ﬁ', "fi"), ('ﬂ', "fl"), ('ﬃ', "ffi"),
    ('ﬄ', "ffl"), ('ﬅ', "st"), ('ﬆ', "st")]

/-- The letters of the Cherokee alphabet, whose capitals are the plain ones. -/
def plainCapitals : Nat × Nat :=
  (0x13A0, 0x13F5)

def after (c : Char) (i : Nat) : Char :=
  Char.ofNat (c.toNat + i)

def plainChar (c : Char) : Char :=
  let n := c.toNat
  match plainRuns.find? fun (first, last, _) => first ≤ n && n ≤ last with
  | some (first, _, plain) => Text.smallLetter (after plain (n - first))
  | none =>
    if inRanges [styledLetters] c then after 'a' ((n - styledLetters.1) % 26)
    else if inRanges [styledDigits] c then after '0' ((n - styledDigits.1) % 10)
    else if inRanges [plainCapitals] c then c
    else Text.smallLetter c

def plain (c : Char) : List Char :=
  if inRanges ignored c then []
  else if dots.contains c then ['.']
  else
    match spelledOut.find? fun e => e.1 = c with
    | some (_, text) => text.toList
    | none => [plainChar c]

def plainText (s : List Char) : List Char :=
  Text.compose (s.flatMap plain)

/-! # Rules for labels -/

/-- The characters that no label contains, in whatever form: controls, blanks,
what has no meaning of its own and what has none at all. -/
def unusable : List (Nat × Nat) :=
  [(0x80, 0xA0), (0xA8, 0xA8), (0xAF, 0xAF), (0xB4, 0xB4), (0xB8, 0xB8),
    (0x61C, 0x61C), (0x1680, 0x1680), (0x180E, 0x180E), (0x2000, 0x200A),
    (0x200E, 0x200F), (0x2028, 0x202F),
    (0x205F, 0x205F), (0x2061, 0x2063), (0x2065, 0x206F), (0x2FF0, 0x3000),
    (0xE000, 0xF8FF), (0xFDD0, 0xFDEF), (0xFFF9, 0xFFFF), (0xE0000, 0xE00FF),
    (0xE01F0, 0x10FFFF)]

def marks : List (Nat × Nat) :=
  [(0x300, 0x36F), (0x483, 0x489), (0x591, 0x5BD), (0x5BF, 0x5BF),
    (0x5C1, 0x5C2), (0x5C4, 0x5C5),
    (0x610, 0x61A), (0x64B, 0x65F), (0x670, 0x670), (0x6D6, 0x6DC),
    (0x6DF, 0x6E4), (0x6E7, 0x6E8),
    (0x6EA, 0x6ED), (0x900, 0x903), (0x93A, 0x93C), (0x93E, 0x94F),
    (0xE31, 0xE31), (0xE34, 0xE3A),
    (0xE47, 0xE4E), (0x1AB0, 0x1ACE), (0x1DC0, 0x1DFF), (0x20D0, 0x20F0),
    (0x302A, 0x302F), (0x3099, 0x309A), (0xFE20, 0xFE2F)]

def isMark (c : Char) : Bool :=
  inRanges marks c

/-- Signs that take the vowel from a consonant. -/
def viramas : List Nat :=
  [0x94D, 0x9CD, 0xA4D, 0xACD, 0xB4D, 0xBCD, 0xC4D, 0xCCD, 0xD4D, 0xDCA, 0xE3A,
    0xF84, 0x1039]

def joiners : List Char :=
  ['\u200C', '\u200D']

def isArabic (c : Char) : Bool :=
  inRanges [(0x620, 0x64A), (0x66E, 0x6D3)] c

/-- Whether joiners stand only where they change how a text looks: behind a
virama, and one that keeps letters apart between letters that would be
joined. -/
def areJoinersInPlace (before : Option Char) : List Char → Bool
  | [] => true
  | c :: rest =>
    let behindVirama := before.any fun b => viramas.contains b.toNat
    let keepsApart :=
      c = '\u200C' && before.any isArabic && rest.head?.any isArabic
    (!joiners.contains c || behindVirama || keepsApart) &&
      areJoinersInPlace (some c) rest

def isUsable (label : List Char) : Bool :=
  !label.any (inRanges unusable) && !label.head?.any isMark &&
    areJoinersInPlace none label

/-! # Direction -/

inductive Direction where
  | leftToRight
  | rightToLeft
  | digit
  | arabicDigit
  | mark
  | neutral
deriving DecidableEq, Repr

def direction (c : Char) : Direction :=
  if isMark c then .mark
  else if c.isDigit || inRanges [(0x6F0, 0x6F9)] c then .digit
  else if inRanges [(0x660, 0x669), (0x66B, 0x66C), (0x6DD, 0x6DD)] c then
    .arabicDigit
  else if inRanges [(0x590, 0x8FF), (0xFB1D, 0xFDFF), (0xFE70, 0xFEFE),
    (0x10800, 0x10FFF),
      (0x1E800, 0x1EFFF)] c then .rightToLeft
  else if inRanges [(0xAB, 0xB9), (0xBB, 0xBF), (0x2000, 0x2BFF),
    (0x1F300, 0x1FAFF)] c then .neutral
  else if c.isAlpha || 0xAA ≤ c.toNat then .leftToRight
  else .neutral

/-- Whether a label keeps to the direction of its first character. -/
def hasOneDirection (label : List Char) : Bool :=
  let directions := label.map direction
  let last := (directions.reverse.dropWhile (· = .mark)).head?
  match directions.head? with
  | none => true
  | some .rightToLeft =>
    !directions.contains .leftToRight &&
      !(directions.contains .digit && directions.contains .arabicDigit) &&
      last.any [.rightToLeft, .digit, .arabicDigit].contains
  | some .leftToRight =>
    !directions.any [.rightToLeft, .arabicDigit].contains &&
      last.any [.leftToRight, .digit].contains
  | some _ => false

/-- Whether the labels agree with one another. Where nothing is written from
right to left, anything does. -/
def doDirectionsAgree (labels : List (List Char)) : Bool :=
  let isBidirectional := labels.any fun label =>
    label.any fun c => [.rightToLeft, .arabicDigit].contains (direction c)
  !isBidirectional || labels.all hasOneDirection

/-! # Forms in ASCII -/

def asciiMark : List Char :=
  "xn--".toList

/-- What a label in its plain form means. A form in ASCII must stand for a label
that has no other plain form, and that is not in ASCII itself. -/
def meaning? (label : List Char) : Option (List Char) :=
  if asciiMark.isPrefixOf label then do
    let text ← Punycode.decode? (label.drop asciiMark.length)
    if text.all Punycode.isAscii || plainText text ≠ text then none
    else some text
  else some label

def asciiLabel (label : List Char) : List Char :=
  if label.all Punycode.isAscii then label
  else asciiMark ++ Punycode.encode label

def normalForm? (s : List Char) : Option (List Char) := do
  let labels ← (splitOn '.' (plainText s)).mapM meaning?
  if labels.all isUsable && doDirectionsAgree labels then
    some (join (labels.map asciiLabel)) else none

end Domain
end CodeIntel
