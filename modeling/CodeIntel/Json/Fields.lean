import CodeIntel.Json.Basic

/-!
# Decoding members

Typed values are decoded from objects member by member. Unknown members are
ignored; an optional member may be missing or null, and a value of the wrong
shape fails in either case. A record may also come as the list of its members
without their names.
-/

namespace CodeIntel
namespace Json

def field? (decode : Json → Option α) (name : String) (value : Json) :
    Option α :=
  (value.get? name).bind decode

def orNull? (decode : Json → Option α) : Json → Option (Option α)
  | .null => some none
  | value => (decode value).map some

def optional? (decode : Json → Option α) (name : String) (value : Json) :
    Option (Option α) :=
  orNull? decode (value.get name)

/-- A record by its members: an object as it is, or a list of all the members in
their order, of which only the `spare` ones at its end may be missing. -/
def recordWith? (names spare : List String) : Json → Option Json
  | .obj members => some (.obj members)
  | .arr items =>
    if names.length ≤ items.length ∧
      items.length ≤ names.length + spare.length then
      some (ofMembers ((names ++ spare).zip items))
    else none
  | _ => none

@[simp]
theorem recordWith?_ofMembers (names spare : List String)
    (members : List (String × Json)) :
    recordWith? names spare (ofMembers members) = some (ofMembers members) :=
  rfl

def record? (names : List String) : Json → Option Json :=
  recordWith? names []

/-- The only member of a record. -/
def only? (decode : Json → Option α) (name : String) (value : Json) :
    Option α :=
  (value.record? [name]).bind (field? decode name)

def list? (decode : Json → Option α) : Json → Option (List α)
  | .arr items => items.mapM decode
  | _ => none

def any? (value : Json) : Option Json :=
  some value

def object? (value : Json) : Option Unit :=
  if value.isObject then some () else none

def u32? : Json → Option Nat :=
  nat? 4294967295

def u64? : Json → Option Nat :=
  nat? 18446744073709551615

def i32? : Json → Option Int :=
  int? (-2147483648) 2147483647

def i64? : Json → Option Int :=
  int? (-9223372036854775808) 9223372036854775807

/-- A choice among names: the name itself, or an object whose only member is
that name with null. -/
def choice? : Json → Option String
  | .str s => some s
  | .obj [(name, .null)] => some name
  | _ => none

def either? (first : Json → Option α) (second : Json → Option α)
    (value : Json) : Option α :=
  (first value).orElse fun _ => second value

end Json
end CodeIntel
