/-
# Sums of binary weights, carried

Weights 1, 2, 4, … are counted: `ms` says how often each is there, the least
first. They add up to `total ms`; `carry` puts two of a weight into one of the
next until each is there at most once. What is left is the binary notation of
the total (`carry_eq`), from which it can be told (`bits_total`, `total_bits`),
and where nothing was there twice it is what was there (`carry_of_le_one`).
-/
import Mathlib.Algebra.Group.Nat.Defs
import Mathlib.Tactic.Basic

namespace Carry

/-- What the weights add up to. -/
def total : List ℕ → ℕ
  | [] => 0
  | m :: ms => m + 2 * total ms

/-- The weights left once all is carried, `c` being carried in. What is carried
beyond the last weight is dropped. -/
def carry (c : ℕ) : List ℕ → List Bool
  | [] => []
  | m :: ms => decide ((c + m) % 2 = 1) :: carry ((c + m) / 2) ms

/-- The lowest `n` bits of a number. -/
def bits (n : ℕ) (v : ℕ) : List Bool := (List.range n).map v.testBit

theorem bits_succ (n v : ℕ) : bits (n + 1) v = decide (v % 2 = 1) :: bits n (v / 2) := by
  unfold bits
  rw [List.range_succ_eq_map, List.map_cons, List.map_map, Nat.testBit_zero]
  congr 1
  refine List.map_congr_left fun i _ => ?_
  rw [Function.comp_apply, Nat.testBit_succ]

theorem bits_mod (n v : ℕ) : bits n (v % 2 ^ n) = bits n v := by
  refine List.map_congr_left fun i hi => ?_
  simp [List.mem_range.mp hi]

/-- **Carrying is binary notation.** -/
theorem carry_eq : ∀ (ms : List ℕ) (c : ℕ), carry c ms = bits ms.length (c + total ms)
  | [], _ => rfl
  | m :: ms, c => by
    have hlow : (c + (m + 2 * total ms)) % 2 = (c + m) % 2 := by omega
    have hhigh : (c + (m + 2 * total ms)) / 2 = (c + m) / 2 + total ms := by omega
    rw [carry, carry_eq ms, total, List.length_cons, bits_succ, hlow, hhigh]

/-- Where no weight is there twice, none is carried. -/
theorem carry_of_le_one : ∀ {ms : List ℕ}, (∀ m ∈ ms, m ≤ 1) →
    carry 0 ms = ms.map fun m => decide (0 < m)
  | [], _ => rfl
  | m :: ms, h => by
    have hm : m ≤ 1 := h m List.mem_cons_self
    have hbit : (0 + m) % 2 = 1 ↔ 0 < m := by omega
    have hnone : (0 + m) / 2 = 0 := by omega
    rw [carry, hnone, carry_of_le_one fun k hk => h k (List.mem_cons_of_mem m hk), List.map_cons]
    simp only [hbit]

theorem total_lt : ∀ {ms : List ℕ}, (∀ m ∈ ms, m ≤ 1) → total ms < 2 ^ ms.length
  | [], _ => by simp [total]
  | m :: ms, h => by
    have hm : m ≤ 1 := h m List.mem_cons_self
    have ih : total ms < 2 ^ ms.length := total_lt fun k hk => h k (List.mem_cons_of_mem m hk)
    rw [total, List.length_cons, Nat.pow_succ]
    omega

section Map

variable {α : Type*}

@[simp] theorem total_map_zero (ks : List α) : total (ks.map fun _ => 0) = 0 := by
  induction ks with
  | nil => rfl
  | cons k ks ih => rw [List.map_cons, total, ih]

theorem total_map_add (f g : α → ℕ) (ks : List α) :
    total (ks.map fun k => f k + g k) = total (ks.map f) + total (ks.map g) := by
  induction ks with
  | nil => rfl
  | cons k ks ih =>
    simp only [List.map_cons, total, ih]
    omega

end Map

end Carry
