/-
# Cells and bytes written in any order

`scatter` is a loop that updates one cell of a block for each element of a
list. If no two elements have the same cell, each cell is what its own element
makes of what the block held before (`scatter_of_mem`).

The `lane`s of a 32-bit word are its four bytes; `bytes` is a block of words
as it lies in little-endian memory. A byte or-ed into a lane of a word is or-ed
into one cell of that memory, and into no other (`bytes_orLane`), so a loop
that fills words byte by byte is a `scatter` of bytes (`bytes_foldl_orLane`).
-/
import Sprint3.Lib.Memory
import Mathlib.Algebra.Group.Nat.Defs
import Mathlib.Data.Nat.Bitwise

namespace Lanes

open Memory

/-! ### Loops that update one cell for each element -/

section Scatter

variable {α T : Type*} (place : α → ℕ) (f : α → T → T)

/-- For each `a` of the list, the cell `place a` is updated by `f a`. -/
def scatter (m : ℕ → T) (l : List α) : ℕ → T :=
  l.foldl (fun m a => store m (place a) (f a (m (place a)))) m

variable {place f}

theorem scatter_of_not_mem {l : List α} {j : ℕ} (hj : ∀ a ∈ l, place a ≠ j) (m : ℕ → T) :
    scatter place f m l j = m j := by
  induction l generalizing m with
  | nil => rfl
  | cons a l ih =>
    have hne : j ≠ place a := (hj a List.mem_cons_self).symm
    show scatter place f (store m (place a) _) l j = m j
    rw [ih fun b hb => hj b (List.mem_cons_of_mem a hb), store, if_neg hne]

/-- Each cell is what its element makes of what it held. -/
theorem scatter_of_mem {l : List α} (hl : l.Pairwise fun a b => place a ≠ place b) {a : α}
    (ha : a ∈ l) (m : ℕ → T) : scatter place f m l (place a) = f a (m (place a)) := by
  induction l generalizing m with
  | nil => cases ha
  | cons b l ih =>
    obtain ⟨hb, hl⟩ := List.pairwise_cons.mp hl
    show scatter place f (store m (place b) _) l (place a) = f a (m (place a))
    rcases List.mem_cons.mp ha with rfl | ha
    · rw [scatter_of_not_mem fun c hc => (hb c hc).symm, store, if_pos rfl]
    · rw [ih hl ha, store, if_neg (hb a ha).symm]

end Scatter

/-! ### The bytes of a word -/

/-- Byte `k` of a word, the lowest first. -/
def lane (w : UInt32) (k : ℕ) : UInt8 := (w >>> UInt32.ofNat (8 * k)).toUInt8

/-- A byte shifted to lane `k`. -/
def atLane (v : UInt8) (k : ℕ) : UInt32 := v.toUInt32 <<< UInt32.ofNat (8 * k)

theorem lane_toNat (w : UInt32) {k : ℕ} (hk : k < 4) :
    (lane w k).toNat = w.toNat >>> (8 * k) % 2 ^ 8 := by
  have hshift : (UInt32.ofNat (8 * k)).toNat % 32 = 8 * k := by
    rw [UInt32.toNat_ofNat_of_lt' (by simp only [UInt32.size]; omega)]
    omega
  rw [lane, UInt32.toNat_toUInt8, UInt32.toNat_shiftRight, hshift]

theorem atLane_toNat (v : UInt8) {k : ℕ} (hk : k < 4) :
    (atLane v k).toNat = v.toNat <<< (8 * k) := by
  have hv := v.toNat_lt
  have hshift : (UInt32.ofNat (8 * k)).toNat % 32 = 8 * k := by
    rw [UInt32.toNat_ofNat_of_lt' (by simp only [UInt32.size]; omega)]
    omega
  rw [atLane, UInt32.toNat_shiftLeft, hshift, UInt8.toNat_toUInt32, Nat.shiftLeft_eq]
  apply Nat.mod_eq_of_lt
  calc v.toNat * 2 ^ (8 * k) < 2 ^ 8 * 2 ^ (8 * k) :=
        Nat.mul_lt_mul_of_pos_right hv (Nat.two_pow_pos _)
    _ = 2 ^ (8 + 8 * k) := (Nat.pow_add ..).symm
    _ ≤ 2 ^ 32 := Nat.pow_le_pow_right (by decide) (by omega)

theorem lane_or (w w' : UInt32) {k : ℕ} (hk : k < 4) :
    lane (w ||| w') k = lane w k ||| lane w' k := by
  apply UInt8.toNat_inj.mp
  rw [UInt8.toNat_or, lane_toNat _ hk, lane_toNat _ hk, lane_toNat _ hk, UInt32.toNat_or,
    Nat.shiftRight_or_distrib, Nat.or_mod_two_pow]

/-- A shifted byte is its lane, and nothing of the others. -/
theorem lane_atLane (v : UInt8) {j k : ℕ} (hj : j < 4) (hk : k < 4) :
    lane (atLane v j) k = if k = j then v else 0 := by
  apply UInt8.toNat_inj.mp
  apply Nat.eq_of_testBit_eq
  intro i
  have hv : ∀ n, 8 ≤ n → v.toNat.testBit n = false := fun n hn =>
    Nat.testBit_lt_two_pow (v.toNat_lt.trans_le (Nat.pow_le_pow_right (by decide) hn))
  rw [lane_toNat _ hk, atLane_toNat _ hj, Nat.testBit_mod_two_pow, Nat.testBit_shiftRight,
    Nat.testBit_shiftLeft]
  by_cases hkj : k = j
  · subst hkj
    by_cases hi : i < 8
    · simp [hi]
    · simp [hi, hv i (by omega)]
  · rw [if_neg hkj]
    by_cases hi : i < 8
    · by_cases hle : 8 * j ≤ 8 * k + i
      · simp [hv (8 * k + i - 8 * j) (by omega)]
      · simp [hle]
    · simp [hi]

/-! ### Words in memory -/

/-- A block of words, byte by byte. -/
def bytes (m : ℕ → UInt32) : ℕ → UInt8 := fun a => lane (m (a / 4)) (a % 4)

/-- A byte or-ed into lane `k` of word `i`. -/
def orLane (m : ℕ → UInt32) (i k : ℕ) (v : UInt8) : ℕ → UInt32 := store m i (m i ||| atLane v k)

/-- One cell of memory gets the byte. -/
theorem bytes_orLane (m : ℕ → UInt32) (i : ℕ) {k : ℕ} (hk : k < 4) (v : UInt8) :
    bytes (orLane m i k v) = store (bytes m) (4 * i + k) (bytes m (4 * i + k) ||| v) := by
  have hword : (4 * i + k) / 4 = i := by omega
  have hlane : (4 * i + k) % 4 = k := by omega
  funext a
  have ha : a % 4 < 4 := Nat.mod_lt _ (by decide)
  unfold orLane store
  simp only [bytes, hword, hlane]
  by_cases hi : a / 4 = i
  · rw [if_pos hi, lane_or _ _ ha, lane_atLane v hk ha, hi]
    by_cases hak : a % 4 = k
    · rw [if_pos hak, if_pos (by omega), hak]
    · rw [if_neg hak, if_neg (by omega), UInt8.or_zero]
  · rw [if_neg hi, if_neg (by omega)]

/-- A loop that or-s a byte into a lane for each element, seen in memory. -/
theorem bytes_foldl_orLane {α : Type*} (word lane : α → ℕ) (val : α → UInt8) {l : List α}
    (hlane : ∀ a ∈ l, lane a < 4) (m : ℕ → UInt32) :
    bytes (l.foldl (fun m a => orLane m (word a) (lane a) (val a)) m) =
      scatter (fun a => 4 * word a + lane a) (fun a b => b ||| val a) (bytes m) l := by
  induction l generalizing m with
  | nil => rfl
  | cons a l ih =>
    rw [List.foldl_cons, ih (fun b hb => hlane b (List.mem_cons_of_mem a hb)),
      bytes_orLane m (word a) (hlane a List.mem_cons_self) (val a)]
    rfl

end Lanes
