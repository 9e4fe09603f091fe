/-
# Copies whose ranges are apart

A `Transfer` copies cells between two arrays or within one. It is `Defined` if
both ranges lie in their arrays and have no cell in common; then the cells can
be copied one by one in any order, and the outcome is that of the copy that
reads everything first (`inOrder_eq_apply`). An `Implementation` of `memcpy`
promises this outcome for transfers that are defined, and nothing for others.

A `Machine` logs what it does that is not defined everywhere, transfers and
subtractions, so that what must hold for a program to be defined can be read
off its log.
-/
import Sprint3.Lib.Memory
import Mathlib.Algebra.Group.Nat.Defs
import Mathlib.Data.List.Induction
import Mathlib.Logic.Function.Basic

namespace Copying

open Memory

variable {A T : Type*}

/-! ### Transfers -/

/-- `count` cells of the array `src` from `s` on, to the array `dst` from `d` on. -/
structure Transfer (A : Type*) where
  dst : A
  d : ℕ
  src : A
  s : ℕ
  count : ℕ
  deriving DecidableEq, Repr

namespace Transfer

/-- Both ranges lie in their arrays. -/
def Within (size : A → ℕ) (t : Transfer A) : Prop :=
  t.d + t.count ≤ size t.dst ∧ t.s + t.count ≤ size t.src

/-- No cell is in both ranges. -/
def Apart (t : Transfer A) : Prop :=
  t.dst = t.src → ∀ i < t.count, ∀ j < t.count, t.d + i ≠ t.s + j

theorem apart_of_ne {t : Transfer A} (h : t.dst ≠ t.src) : t.Apart := fun heq => absurd heq h

/-- Ranges of one array are apart if they are empty or one ends before the other starts. -/
theorem apart_iff {t : Transfer A} (h : t.dst = t.src) :
    t.Apart ↔ t.count = 0 ∨ t.d + t.count ≤ t.s ∨ t.s + t.count ≤ t.d := by
  unfold Apart
  constructor
  · intro hapart
    by_contra hoverlap
    -- the later of the two starts is in both ranges
    have hcells := hapart h
    by_cases hle : t.d ≤ t.s
    · exact hcells (t.s - t.d) (by omega) 0 (by omega) (by omega)
    · exact hcells 0 (by omega) (t.d - t.s) (by omega) (by omega)
  · intro hranges _ i hi j hj
    omega

section Memory

variable [DecidableEq A]

/-- The memory after a copy that reads the whole source first. -/
def apply (t : Transfer A) (mem : A → ℕ → T) : A → ℕ → T :=
  Function.update mem t.dst (copy (mem t.dst) t.d (mem t.src) t.s t.count)

/-- The `i`-th cell, copied. -/
def cell (t : Transfer A) (mem : A → ℕ → T) (i : ℕ) : A → ℕ → T :=
  Function.update mem t.dst (store (mem t.dst) (t.d + i) (mem t.src (t.s + i)))

/-- The cells copied one by one. -/
def inOrder (t : Transfer A) (order : List ℕ) (mem : A → ℕ → T) : A → ℕ → T :=
  order.foldl t.cell mem

theorem cell_other {t : Transfer A} {mem : A → ℕ → T} {i j : ℕ} {a : A}
    (h : a = t.dst → j ≠ t.d + i) : t.cell mem i a j = mem a j := by
  unfold cell
  by_cases ha : a = t.dst
  · rw [ha, Function.update_self, store, if_neg (h ha)]
  · rw [Function.update_of_ne ha]

theorem cell_self (t : Transfer A) (mem : A → ℕ → T) (i : ℕ) :
    t.cell mem i t.dst (t.d + i) = mem t.src (t.s + i) := by
  rw [cell, Function.update_self, store, if_pos rfl]

/-- A cell to which none is copied stays as it was. -/
theorem inOrder_other {t : Transfer A} {order : List ℕ} {mem : A → ℕ → T} {j : ℕ} {a : A}
    (h : a = t.dst → ∀ i ∈ order, j ≠ t.d + i) : t.inOrder order mem a j = mem a j := by
  induction order using List.reverseRecOn with
  | nil => rfl
  | append_singleton order i ih =>
    have hlast : a = t.dst → j ≠ t.d + i := fun ha => h ha i (by simp)
    have hbefore : a = t.dst → ∀ i ∈ order, j ≠ t.d + i :=
      fun ha i hi => h ha i (List.mem_append_left _ hi)
    rw [inOrder, List.foldl_append]
    exact (cell_other hlast).trans (ih hbefore)

/-- A cell to which one is copied gets what that one held at the start. -/
theorem inOrder_self {t : Transfer A} (hapart : t.Apart) {order : List ℕ}
    (horder : ∀ i ∈ order, i < t.count) (mem : A → ℕ → T) {i : ℕ} (hi : i ∈ order) :
    t.inOrder order mem t.dst (t.d + i) = mem t.src (t.s + i) := by
  induction order using List.reverseRecOn with
  | nil => cases hi
  | append_singleton order k ih =>
    have hbefore : ∀ i ∈ order, i < t.count := fun i hi => horder i (List.mem_append_left _ hi)
    have hk : k < t.count := horder k (by simp)
    rw [inOrder, List.foldl_append]
    change t.cell (t.inOrder order mem) k t.dst (t.d + i) = mem t.src (t.s + i)
    by_cases heq : i = k
    · rw [heq, cell_self]
      -- the cell read now was written by none of the copies before
      exact inOrder_other fun hsrc j hj => Ne.symm (hapart hsrc.symm j (hbefore j hj) k hk)
    · have hmem : i ∈ order := by
        rcases List.mem_append.mp hi with hi | hi
        · exact hi
        · exact absurd (List.mem_singleton.mp hi) heq
      have hne : t.d + i ≠ t.d + k := by omega
      rw [cell_other fun _ => hne, ih hbefore hmem]

/-- **If the ranges are apart, the order of the copies does not matter.** -/
theorem inOrder_eq_apply {t : Transfer A} (hapart : t.Apart) {order : List ℕ}
    (horder : ∀ i, i ∈ order ↔ i < t.count) (mem : A → ℕ → T) :
    t.inOrder order mem = t.apply mem := by
  funext a j
  by_cases hcopied : a = t.dst ∧ t.d ≤ j ∧ j < t.d + t.count
  · obtain ⟨rfl, hrange⟩ := hcopied
    obtain ⟨i, rfl⟩ := Nat.exists_eq_add_of_le hrange.1
    have hi : i ∈ order := (horder i).mpr (by omega)
    rw [inOrder_self hapart (fun i hi => (horder i).mp hi) mem hi, apply, Function.update_self,
      copy, if_pos hrange, Nat.add_sub_cancel_left]
  · have hother : a = t.dst → ∀ i ∈ order, j ≠ t.d + i := by
      intro ha i hi hj
      have hlt := (horder i).mp hi
      exact hcopied ⟨ha, by omega, by omega⟩
    rw [inOrder_other hother, apply]
    by_cases ha : a = t.dst
    · have hrange : ¬(t.d ≤ j ∧ j < t.d + t.count) := fun hrange => hcopied ⟨ha, hrange⟩
      rw [ha, Function.update_self, copy, if_neg hrange]
    · rw [Function.update_of_ne ha]

end Memory
end Transfer

/-! ### `memcpy` -/

/-- What copies the cells of a transfer that is within its arrays and whose ranges are apart. -/
structure Implementation (A T : Type*) [DecidableEq A] where
  run : (A → ℕ) → Transfer A → (A → ℕ → T) → A → ℕ → T
  run_eq : ∀ size t mem, t.Within size → t.Apart → run size t mem = t.apply mem

/-- The cells are copied one by one. -/
def Implementation.ofOrder [DecidableEq A] (order : ℕ → List ℕ)
    (horder : ∀ n i, i ∈ order n ↔ i < n) : Implementation A T where
  run _ t mem := t.inOrder (order t.count) mem
  run_eq _ t mem _ hapart := Transfer.inOrder_eq_apply hapart (horder t.count) mem

/-- From the last cell to the first. -/
def Implementation.descending [DecidableEq A] : Implementation A T :=
  .ofOrder (fun n => (List.range n).reverse) fun n i => by simp

/-! ### Programs -/

/-- An operation that is defined under a condition only: a transfer, and `a - b` without sign. -/
inductive Op (A : Type*)
  | memcpy (t : Transfer A)
  | sub (a b : ℕ)
  deriving DecidableEq, Repr

namespace Op

/-- Nothing outside the arrays is touched, and nothing below zero results. -/
def InRange (size : A → ℕ) : Op A → Prop
  | memcpy t => t.Within size
  | sub a b => b ≤ a

def Apart : Op A → Prop
  | memcpy t => t.Apart
  | sub _ _ => True

def Defined (size : A → ℕ) (op : Op A) : Prop := op.InRange size ∧ op.Apart

end Op

/-- The arrays with their sizes, and what was done. -/
structure Machine (A T : Type*) where
  size : A → ℕ
  mem : A → ℕ → T
  log : List (Op A)

abbrev Code (A T : Type) := StateM (Machine A T)

section Code

variable {A T : Type} [DecidableEq A]

def memcpy (impl : Implementation A T) (t : Transfer A) : Code A T PUnit :=
  modify fun m => { m with mem := impl.run m.size t m.mem, log := m.log ++ [.memcpy t] }

/-- `a - b` in words of `w` bits. -/
def sub (w a b : ℕ) : Code A T ℕ :=
  modifyGet fun m => ((a + (2 ^ w - b)) % 2 ^ w, { m with log := m.log ++ [.sub a b] })

end Code
end Copying
