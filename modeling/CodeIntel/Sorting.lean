/-!
# Stable sorting

Insertion sort by a comparison. Items that compare equal both ways keep their
order.
-/

namespace CodeIntel
namespace Sorting

/-- Puts an item in front of the first one that it does not exceed. -/
def insertBy (le : α → α → Bool) (x : α) : List α → List α
  | [] => [x]
  | y :: rest => if le x y then x :: y :: rest else y :: insertBy le x rest

def sortBy (le : α → α → Bool) : List α → List α
  | [] => []
  | x :: rest => insertBy le x (sortBy le rest)

theorem insertBy_perm (le : α → α → Bool) (x : α) (xs : List α) :
    (insertBy le x xs).Perm (x :: xs) := by
  induction xs with
  | nil =>
      exact List.Perm.refl _
  | cons y rest ih =>
      simp only [insertBy]
      split
      · exact List.Perm.refl _
      · exact (ih.cons y).trans (List.Perm.swap x y rest)

theorem sortBy_perm (le : α → α → Bool) (xs : List α) :
    (sortBy le xs).Perm xs := by
  induction xs with
  | nil =>
      exact List.Perm.refl _
  | cons x rest ih =>
      exact (insertBy_perm le x _).trans (ih.cons x)

/-! # Order and stability -/

section Order

variable {le : α → α → Bool}

theorem pairwise_insertBy (htotal : ∀ a b, le a b = true ∨ le b a = true)
    (htrans : ∀ a b c, le a b = true → le b c = true → le a c = true) (x : α)
    {xs : List α} (h : xs.Pairwise fun a b => le a b = true) :
    (insertBy le x xs).Pairwise fun a b => le a b = true := by
  induction xs with
  | nil =>
      exact List.pairwise_singleton _ _
  | cons y rest ih =>
      rcases List.pairwise_cons.mp h with ⟨hy, hrest⟩
      rw [insertBy]
      split
      · next hxy =>
          refine List.pairwise_cons.mpr ⟨?_, h⟩
          intro z hz
          cases List.mem_cons.mp hz with
          | inl heq =>
              rw [heq]
              exact hxy
          | inr hmem =>
              exact htrans x y z hxy (hy z hmem)
      · next hxy =>
          refine List.pairwise_cons.mpr ⟨?_, ih hrest⟩
          intro z hz
          cases List.mem_cons.mp ((insertBy_perm le x rest).mem_iff.mp hz) with
          | inl heq =>
              rw [heq]
              exact (htotal y x).resolve_right hxy
          | inr hmem =>
              exact hy z hmem

theorem pairwise_sortBy (htotal : ∀ a b, le a b = true ∨ le b a = true)
    (htrans : ∀ a b c, le a b = true → le b c = true → le a c = true)
    (xs : List α) :
    (sortBy le xs).Pairwise fun a b => le a b = true := by
  induction xs with
  | nil =>
      exact List.Pairwise.nil
  | cons x rest ih =>
      exact pairwise_insertBy htotal htrans x ih

theorem filter_insertBy {p : α → Bool}
    (hclass : ∀ a b, p a = true → p b = true → le a b = true)
    (x : α) (xs : List α) :
    (insertBy le x xs).filter p = (x :: xs).filter p := by
  induction xs with
  | nil =>
      rfl
  | cons y rest ih =>
      rw [insertBy]
      split
      · rfl
      · next hxy =>
          rw [List.filter_cons, ih]
          by_cases hx : p x = true
          · have hy : ¬ p y = true := fun hy => hxy (hclass x y hx hy)
            simp [hx, hy]
          · simp [List.filter_cons, hx]

theorem filter_sortBy {p : α → Bool}
    (hclass : ∀ a b, p a = true → p b = true → le a b = true)
    (xs : List α) : (sortBy le xs).filter p = xs.filter p := by
  induction xs with
  | nil =>
      rfl
  | cons x rest ih =>
      rw [sortBy, filter_insertBy hclass, List.filter_cons,
        List.filter_cons, ih]

theorem head_le (hrefl : ∀ a, le a a = true) {x y : α} {xs : List α}
    (h : (x :: xs).Pairwise fun a b => le a b = true) (hy : y ∈ x :: xs) :
    le x y = true := by
  cases List.mem_cons.mp hy with
  | inl heq =>
      rw [heq]
      exact hrefl x
  | inr hmem =>
      exact (List.pairwise_cons.mp h).1 y hmem

theorem mem_of_filter_eq [DecidableEq β] {key : α → β} {xs ys : List α}
    (h : ∀ k, (xs.filter fun a => key a = k) = ys.filter fun a => key a = k)
    {x : α} (hx : x ∈ xs) : x ∈ ys := by
  have hmem : x ∈ xs.filter fun a => key a = key x :=
    List.mem_filter.mpr ⟨hx, decide_eq_true rfl⟩
  rw [h] at hmem
  exact (List.mem_filter.mp hmem).1

/-- Two ascending lists are the same if they agree on each class of items that
compare equal. -/
theorem eq_of_filter_eq [DecidableEq β] (key : α → β)
    (hrefl : ∀ a, le a a = true)
    (hkey : ∀ a b, le a b = true → le b a = true → key a = key b)
    {xs ys : List α}
    (hxs : xs.Pairwise fun a b => le a b = true)
    (hys : ys.Pairwise fun a b => le a b = true)
    (h : ∀ k, (xs.filter fun a => key a = k) = ys.filter fun a => key a = k) :
    xs = ys := by
  induction xs generalizing ys with
  | nil =>
      cases ys with
      | nil =>
          rfl
      | cons y rest =>
          have hy := h (key y)
          simp at hy
  | cons x xs ih =>
      cases ys with
      | nil =>
          have hx := h (key x)
          simp at hx
      | cons y ys =>
          have hxy : key x = key y := by
            have hx : x ∈ y :: ys := mem_of_filter_eq h List.mem_cons_self
            have hy : y ∈ x :: xs :=
              mem_of_filter_eq (fun k => (h k).symm) List.mem_cons_self
            exact hkey x y (head_le hrefl hxs hy) (head_le hrefl hys hx)
          have hhead : x = y := by
            have hx := h (key x)
            simp only [List.filter_cons, decide_true, if_true, hxy] at hx
            exact (List.cons.inj hx).1
          subst hhead
          have htail : ∀ k, (xs.filter fun a => key a = k) = ys.filter fun a =>
              key a = k := by
            intro k
            have hk := h k
            simp only [List.filter_cons] at hk
            split at hk
            · exact (List.cons.inj hk).2
            · exact hk
          rw [ih (List.pairwise_cons.mp hxs).2
            (List.pairwise_cons.mp hys).2 htail]

end Order

end Sorting
end CodeIntel
