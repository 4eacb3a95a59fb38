/-!
# Totals

The sum of a measure over the items of a list.
-/

namespace CodeIntel

def sumOf (measure : α → Nat) : List α → Nat
  | [] => 0
  | a :: rest => measure a + sumOf measure rest

@[simp] theorem sumOf_nil (measure : α → Nat) : sumOf measure [] = 0 := rfl

@[simp] theorem sumOf_cons (measure : α → Nat) (a : α) (rest : List α) :
    sumOf measure (a :: rest) = measure a + sumOf measure rest := rfl

theorem sumOf_congr {measure other : α → Nat} {items : List α}
    (h : ∀ a ∈ items, measure a = other a) :
    sumOf measure items = sumOf other items := by
  induction items with
  | nil =>
      rfl
  | cons a rest ih =>
      rw [sumOf_cons, sumOf_cons, h a List.mem_cons_self,
        ih fun b hb => h b (List.mem_cons_of_mem a hb)]

theorem sumOf_perm (measure : α → Nat) {xs ys : List α} (h : xs.Perm ys) :
    sumOf measure xs = sumOf measure ys := by
  induction h with
  | nil =>
      rfl
  | cons x _ ih =>
      rw [sumOf_cons, sumOf_cons, ih]
  | swap x y rest =>
      simp only [sumOf_cons]
      omega
  | trans _ _ ih₁ ih₂ =>
      exact ih₁.trans ih₂

end CodeIntel
