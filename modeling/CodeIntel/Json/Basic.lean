import CodeIntel.Decimal.Shortest

/-!
# JSON values

Integers of 64 bits, signed or unsigned, and floating-point numbers are kept
apart. The members of an object have distinct names in ascending order;
`Json.ofMembers` and `Json.set` keep it so, and of two members with one name the
later one wins.
-/

namespace CodeIntel

inductive Json where
  | null
  | bool (b : Bool)
  | int (i : Int)
  | real (x : Binary64)
  | str (s : String)
  | arr (items : List Json)
  | obj (members : List (String × Json))
deriving Inhabited, Repr

namespace Json

/-! # Equality -/

mutual

def decEq : (a b : Json) → Decidable (a = b)
  | .null, .null => isTrue rfl
  | .bool a, .bool b =>
    if h : a = b then isTrue (h ▸ rfl) else isFalse (by simpa using h)
  | .int a, .int b =>
    if h : a = b then isTrue (h ▸ rfl) else isFalse (by simpa using h)
  | .real a, .real b =>
    if h : a = b then isTrue (h ▸ rfl) else isFalse (by simpa using h)
  | .str a, .str b =>
    if h : a = b then isTrue (h ▸ rfl) else isFalse (by simpa using h)
  | .arr a, .arr b =>
    match decEqItems a b with
    | isTrue h => isTrue (h ▸ rfl)
    | isFalse h => isFalse (by simpa using h)
  | .obj a, .obj b =>
    match decEqMembers a b with
    | isTrue h => isTrue (h ▸ rfl)
    | isFalse h => isFalse (by simpa using h)
  | .null, .bool _ | .null, .int _ | .null, .real _ | .null, .str _ | .null,
      .arr _ | .null, .obj _
  | .bool _, .null | .bool _, .int _ | .bool _, .real _ | .bool _,
      .str _ | .bool _, .arr _
  | .bool _, .obj _
  | .int _, .null | .int _, .bool _ | .int _, .real _ | .int _,
      .str _ | .int _, .arr _
  | .int _, .obj _
  | .real _, .null | .real _, .bool _ | .real _, .int _ | .real _,
      .str _ | .real _, .arr _
  | .real _, .obj _
  | .str _, .null | .str _, .bool _ | .str _, .int _ | .str _,
      .real _ | .str _, .arr _
  | .str _, .obj _
  | .arr _, .null | .arr _, .bool _ | .arr _, .int _ | .arr _,
      .real _ | .arr _, .str _
  | .arr _, .obj _
  | .obj _, .null | .obj _, .bool _ | .obj _, .int _ | .obj _,
      .real _ | .obj _, .str _
  | .obj _, .arr _ => isFalse nofun

def decEqItems : (a b : List Json) → Decidable (a = b)
  | [], [] => isTrue rfl
  | [], _ :: _ => isFalse nofun
  | _ :: _, [] => isFalse nofun
  | a :: as, b :: bs =>
    match decEq a b, decEqItems as bs with
    | isTrue h, isTrue hs => isTrue (by rw [h, hs])
    | isFalse h, _ => isFalse fun e => h (List.cons.inj e).1
    | _, isFalse hs => isFalse fun e => hs (List.cons.inj e).2

def decEqMembers : (a b : List (String × Json)) → Decidable (a = b)
  | [], [] => isTrue rfl
  | [], _ :: _ => isFalse nofun
  | _ :: _, [] => isFalse nofun
  | (k, a) :: as, (l, b) :: bs =>
    if hk : k = l then
      match decEq a b, decEqMembers as bs with
      | isTrue h, isTrue hs => isTrue (by rw [hk, h, hs])
      | isFalse h, _ => isFalse fun e => h (Prod.mk.inj (List.cons.inj e).1).2
      | _, isFalse hs => isFalse fun e => hs (List.cons.inj e).2
    else isFalse fun e => hk (Prod.mk.inj (List.cons.inj e).1).1

end

instance : DecidableEq Json := decEq

/-! # Members -/

/-- Sets the member `name`, keeping the names distinct and ascending. -/
def insertMember (name : String) (value : Json) :
    List (String × Json) → List (String × Json)
  | [] => [(name, value)]
  | (k, v) :: rest =>
    if name < k then (name, value) :: (k, v) :: rest
    else if name = k then (name, value) :: rest
    else (k, v) :: insertMember name value rest

def lookup (name : String) : List (String × Json) → Option Json
  | [] => none
  | (k, v) :: rest => if name = k then some v else lookup name rest

def eraseMember (name : String) : List (String × Json) → List (String × Json)
  | [] => []
  | (k, v) :: rest => if name = k then rest else (k, v) :: eraseMember name rest

def ofMembers (members : List (String × Json)) : Json :=
  .obj (members.foldl (fun acc m => insertMember m.1 m.2 acc) [])

def ofOptions (members : List (String × Option Json)) : Json :=
  ofMembers (members.filterMap fun m => m.2.map (m.1, ·))

def empty : Json := .obj []

theorem lookup_insertMember_self (name : String) (value : Json)
    (members : List (String × Json)) :
    lookup name (insertMember name value members) = some value := by
  induction members with
  | nil =>
      simp [insertMember, lookup]
  | cons m rest ih =>
      obtain ⟨k, v⟩ := m
      simp only [insertMember]
      split
      · simp [lookup]
      · split
        · simp [lookup]
        · next h =>
            simp [lookup, h, ih]

theorem lookup_insertMember_of_ne {name other : String} (h : other ≠ name)
    (value : Json) (members : List (String × Json)) :
    lookup other (insertMember name value members) = lookup other members := by
  induction members with
  | nil =>
      simp [insertMember, lookup, h]
  | cons m rest ih =>
      obtain ⟨k, v⟩ := m
      simp only [insertMember]
      split
      · simp [lookup, h]
      · split
        · next e =>
            subst e
            simp [lookup, h]
        · simp [lookup, ih]

/-! # Access -/

def get? (name : String) : Json → Option Json
  | .obj members => lookup name members
  | _ => none

def get (name : String) (value : Json) : Json :=
  (value.get? name).getD .null

/-- The object with its member `name` set; other values stay as they are. -/
def set (value : Json) (name : String) (member : Json) : Json :=
  match value with
  | .obj members => .obj (insertMember name member members)
  | value => value

def isNull : Json → Bool
  | .null => true
  | _ => false

def isObject : Json → Bool
  | .obj _ => true
  | _ => false

def str? : Json → Option String
  | .str s => some s
  | _ => none

def bool? : Json → Option Bool
  | .bool b => some b
  | _ => none

def arr? : Json → Option (List Json)
  | .arr items => some items
  | _ => none

def nat? (bound : Nat) : Json → Option Nat
  | .int i => if 0 ≤ i ∧ i ≤ bound then some i.toNat else none
  | _ => none

def int? (lo hi : Int) : Json → Option Int
  | .int i => if lo ≤ i ∧ i ≤ hi then some i else none
  | _ => none

def ofNat (n : Nat) : Json :=
  .int n

def ofOption (encode : α → Json) : Option α → Json
  | none => .null
  | some a => encode a

def ofList (encode : α → Json) (items : List α) : Json :=
  .arr (items.map encode)

theorem get?_of_not_object {name : String} {value : Json}
    (h : value.isObject = false) :
    value.get? name = none := by
  cases value <;> simp_all [isObject, get?]

end Json
end CodeIntel
