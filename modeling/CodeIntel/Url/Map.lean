import CodeIntel.Url.Basic

/-!
# Tables by URL

An association list whose keys are distinct and ascend by the text of the URL.
-/

namespace CodeIntel

abbrev UrlMap (α : Type) := List (Url × α)

namespace UrlMap

/-- Changes the value of a key, which is there with the value `initial` at
first. -/
def update (uri : Url) (initial : α) (change : α → α) : UrlMap α → UrlMap α
  | [] => [(uri, change initial)]
  | (u, a) :: rest =>
    if uri = u then (u, change a) :: rest
    else if uri.text < u.text then (uri, change initial) :: (u, a) :: rest
    else (u, a) :: update uri initial change rest

def insert (uri : Url) (a : α) (m : UrlMap α) : UrlMap α :=
  m.update uri a fun _ => a

def find? (uri : Url) : UrlMap α → Option α
  | [] => none
  | (u, a) :: rest => if uri = u then some a else find? uri rest

end UrlMap
end CodeIntel
