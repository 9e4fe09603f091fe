/-
# Rows laid end to end

A list of rows of one width, and the list that they are end to end: the
element `x` of row `y` is element `w * y + x`.
-/
import Mathlib.Data.Nat.Notation
import Mathlib.Tactic.Basic

namespace Rows

variable {α : Type*} {w : ℕ}

theorem length_flatten {rows : List (List α)} (h : ∀ row ∈ rows, row.length = w) :
    rows.flatten.length = w * rows.length := by
  induction rows with
  | nil => rfl
  | cons row rows ih =>
    rw [List.flatten_cons, List.length_append, h row List.mem_cons_self,
      ih fun r hr => h r (List.mem_cons_of_mem row hr), List.length_cons, Nat.mul_succ,
      Nat.add_comm]

/-- **Where an element of a row is.** -/
theorem getElem?_flatten {rows : List (List α)} (h : ∀ row ∈ rows, row.length = w) {x : ℕ}
    (hx : x < w) (y : ℕ) : rows.flatten[w * y + x]? = rows[y]?.bind (·[x]?) := by
  induction rows generalizing y with
  | nil => rfl
  | cons row rows ih =>
    have hrow : row.length = w := h row List.mem_cons_self
    cases y with
    | zero => simp [List.getElem?_append_left (hrow ▸ hx)]
    | succ y =>
      have hlen : row.length ≤ w * (y + 1) + x := by
        rw [hrow, Nat.mul_succ]
        omega
      have hrest : w * (y + 1) + x - row.length = w * y + x := by
        rw [hrow, Nat.mul_succ]
        omega
      rw [List.flatten_cons, List.getElem?_append_right hlen, hrest, List.getElem?_cons_succ]
      exact ih (fun r hr => h r (List.mem_cons_of_mem row hr)) y

end Rows
