import CodeIntel.Protocol.Symbol

/-!
# Which symbols match a query

Servers search symbols by rules of their own, so each symbol they find is
checked again. The rules are tried in order and the first one that accepts wins;
a query with a dot or a colon is qualified and matches only exactly.
-/

namespace CodeIntel
namespace Lookup

def occursIn (part : List Char) : List Char → Bool
  | [] => part.isEmpty
  | c :: rest => part.isPrefixOf (c :: rest) || occursIn part rest

def isQualified (query : String) : Bool :=
  query.toList.any fun c => c = '.' || c = ':'

def endsIn (separator query name : String) : Bool :=
  (separator.toList ++ query.toList).isSuffixOf name.toList

def hasContainer (container : Option String) : Bool :=
  container.any fun c => !c.isEmpty

/-- Equality up to the case of ASCII letters. -/
def sameLetters (s t : String) : Bool :=
  s.toList.map Char.toLower = t.toList.map Char.toLower

def lastSegment? (name : List Char) : Option (List Char) :=
  match name with
  | [] => none
  | c :: rest =>
    match lastSegment? rest with
    | some segment => some segment
    | none =>
      if c = ':' ∧ rest.head? = some ':' then some (rest.drop 1) else none

/-! # Rules -/

def qualifiedRule (query name : String) : Bool :=
  endsIn "::" query name || endsIn "." query name

/-- Methods and functions match by name inside a container. -/
def callableRule (query name : String) (kind : SymbolKind)
    (container : Option String) : Bool :=
  (kind = .methodKind || kind = .functionKind) && name = query &&
    hasContainer container

/-- Types match by a part of the name, or by the whole name in any case. -/
def typeRule (query name : String) (kind : SymbolKind) : Bool :=
  kind.isType && (sameLetters name query || occursIn query.toList name.toList)

/-- Variables and constants match by the last segment of the name. -/
def valueRule (query name : String) (kind : SymbolKind) : Bool :=
  (kind = .variableKind || kind = .constantKind) &&
    lastSegment? name.toList = some query.toList

def isMatch (query name : String) (kind : SymbolKind)
    (container : Option String) : Bool :=
  if name = query then true
  else if isQualified query then false
  else qualifiedRule query name || callableRule query name kind container ||
    typeRule query name kind || valueRule query name kind

end Lookup
end CodeIntel
