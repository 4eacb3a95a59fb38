import CodeIntel.Mock.Fixture

/-!
# Members of built objects

What is found in an object that was built from members in any order: under each
name the last of the members with that name. Decoding a member gives back what
was put there.
-/

namespace CodeIntel
namespace Json

def lastMember? (name : String) : List (String × Json) → Option Json
  | [] => none
  | (k, v) :: rest =>
    (lastMember? name rest).or (if k = name then some v else none)

theorem lookup_insertMember (name other : String) (value : Json)
    (members : List (String × Json)) :
    lookup other (insertMember name value members) =
      if name = other then some value else lookup other members := by
  by_cases h : name = other
  · rw [if_pos h, ← h]
    exact lookup_insertMember_self name value members
  · rw [if_neg h]
    exact lookup_insertMember_of_ne (Ne.symm h) value members

theorem lookup_foldl_insertMember (name : String)
    (members acc : List (String × Json)) :
    lookup name (members.foldl (fun acc m => insertMember m.1 m.2 acc) acc) =
      (lastMember? name members).or (lookup name acc) := by
  induction members generalizing acc with
  | nil =>
      rfl
  | cons m rest ih =>
      obtain ⟨k, v⟩ := m
      rw [List.foldl_cons, ih, lookup_insertMember, lastMember?]
      cases lastMember? name rest with
      | some found =>
          rfl
      | none =>
          by_cases h : k = name
          · simp [h]
          · simp [h]

theorem get?_ofMembers (name : String) (members : List (String × Json)) :
    (ofMembers members).get? name = lastMember? name members := by
  have h := lookup_foldl_insertMember name members []
  simpa [ofMembers, get?, lookup] using h

theorem get_ofMembers (name : String) (members : List (String × Json)) :
    (ofMembers members).get name = (lastMember? name members).getD .null := by
  rw [get, get?_ofMembers]

theorem lastMember?_eq_none {name : String} {members : List (String × Json)}
    (h : ∀ m ∈ members, m.1 ≠ name) : lastMember? name members = none := by
  induction members with
  | nil =>
      rfl
  | cons m rest ih =>
      rw [lastMember?, ih fun n hn => h n (List.mem_cons_of_mem m hn),
        if_neg (h m List.mem_cons_self), Option.or_none]

theorem follow?_nil (value : Json) : value.follow? [] = some value := rfl

theorem follow?_ofMembers (name : String) (rest : List String)
    (members : List (String × Json)) :
    (ofMembers members).follow? (name :: rest) =
      (lastMember? name members).bind (follow? rest) := by
  rw [← get?_ofMembers]
  rfl

theorem follow?_first (rest : List String) (item : Json) (items : List Json) :
    (arr (item :: items)).follow? ("0" :: rest) = item.follow? rest := by
  rw [follow?, List.zipIdx_cons, List.find?_cons_of_pos rfl]

theorem isObject_ofMembers (members : List (String × Json)) :
    (ofMembers members).isObject = true := rfl

/-! # Members that are left out -/

theorem eq_null_of_isNull {value : Json} (h : value.isNull = true) :
    value = .null := by
  cases value with
  | null =>
      rfl
  | bool | int | real | str | arr | obj =>
      exact nomatch h

/-- A member that is left out if it is null is read as null then. -/
theorem lastMember?_unless_null (name : String) (value : Json) :
    (lastMember? name (if value.isNull then [] else [(name, value)])).getD
      .null = value := by
  by_cases h : value.isNull = true
  · rw [if_pos h, eq_null_of_isNull h]
    rfl
  · rw [if_neg h]
    simp [lastMember?]

theorem lastMember?_unless_null_of_ne {name other : String} (h : name ≠ other)
    (value : Json) :
    lastMember? other (if value.isNull then [] else [(name, value)]) =
      none := by
  by_cases hnull : value.isNull = true
  · rw [if_pos hnull]
    rfl
  · rw [if_neg hnull]
    simp [lastMember?, h]

/-! # Numbers -/

theorem i64?_int {i : Int} (hlo : -9223372036854775808 ≤ i)
    (hhi : i ≤ 9223372036854775807) :
    (int i).i64? = some i := by
  simp [i64?, int?, hlo, hhi]

end Json
end CodeIntel
