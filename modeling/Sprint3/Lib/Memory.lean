/-
# Blocks of memory

A block of memory is a function from indices to cells. `copy` is the copy of
`n` cells that reads the whole source before it writes (so a source that
overlaps the destination is read as it was), and `slice` the list of cells a
range holds.

Key theorems: `slice_copy`, `slice_copy_below`, `slice_add`, `slice_ofList`.
-/
import Mathlib.Data.List.Basic
import Mathlib.Data.List.Range
import Mathlib.Tactic.Basic

namespace Memory

variable {T : Type*}

/-- `n` cells of `src` from `s` on, copied to `dst` from `d` on. -/
def copy (dst : ℕ → T) (d : ℕ) (src : ℕ → T) (s n : ℕ) : ℕ → T :=
  fun i => if d ≤ i ∧ i < d + n then src (s + (i - d)) else dst i

/-- `v` stored at `i`. -/
def store (m : ℕ → T) (i : ℕ) (v : T) : ℕ → T := fun j => if j = i then v else m j

/-- The cells `m[s], …, m[s + n - 1]`. -/
def slice (m : ℕ → T) (s n : ℕ) : List T := (List.range' s n).map m

/-- The block that starts with the elements of `l`. -/
def ofList [Inhabited T] (l : List T) : ℕ → T := fun i => l.getD i default

@[simp] theorem slice_length (m : ℕ → T) (s n : ℕ) : (slice m s n).length = n := by
  simp [slice]

@[simp] theorem slice_getElem (m : ℕ → T) (s n : ℕ) {i : ℕ} (h : i < (slice m s n).length) :
    (slice m s n)[i] = m (s + i) := by
  simp [slice]

@[simp] theorem slice_zero (m : ℕ → T) (s : ℕ) : slice m s 0 = [] := rfl

theorem slice_succ (m : ℕ → T) (s n : ℕ) : slice m s (n + 1) = slice m s n ++ [m (s + n)] := by
  simp [slice, List.range'_concat]

theorem slice_add (m : ℕ → T) (s a b : ℕ) : slice m s (a + b) = slice m s a ++ slice m (s + a) b := by
  rw [slice, slice, slice, ← List.map_append]
  congr 1
  simp

theorem slice_congr {m m' : ℕ → T} {s s' n : ℕ} (h : ∀ i < n, m (s + i) = m' (s' + i)) :
    slice m s n = slice m' s' n := by
  apply List.ext_getElem (by simp)
  intro i hi _
  simp only [slice_length] at hi
  simpa [slice] using h i hi

theorem slice_take (m : ℕ → T) (s n k : ℕ) : (slice m s n).take k = slice m s (min k n) := by
  rcases Nat.le_total k n with h | h
  · obtain ⟨r, rfl⟩ := Nat.exists_eq_add_of_le h
    rw [slice_add, min_eq_left h, List.take_left' (by simp)]
  · rw [min_eq_right h, List.take_of_length_le (by simpa using h)]

theorem slice_drop (m : ℕ → T) (s n k : ℕ) : (slice m s n).drop k = slice m (s + k) (n - k) := by
  rcases Nat.le_total k n with h | h
  · obtain ⟨r, rfl⟩ := Nat.exists_eq_add_of_le h
    rw [slice_add, List.drop_left' (by simp), Nat.add_sub_cancel_left]
  · rw [Nat.sub_eq_zero_of_le h, List.drop_of_length_le (by simpa using h), slice_zero]

/-- A part of the copied range holds what that part of the source held. -/
theorem slice_copy_within (dst : ℕ → T) (d : ℕ) (src : ℕ → T) {s n a k : ℕ} (h : a + k ≤ n) :
    slice (copy dst d src s n) (d + a) k = slice src (s + a) k :=
  slice_congr fun i hi => by
    have hin : a + i < n := by omega
    simp [copy, Nat.add_assoc, hin]

/-- The copied range holds what the source held. -/
theorem slice_copy (dst : ℕ → T) (d : ℕ) (src : ℕ → T) (s n : ℕ) :
    slice (copy dst d src s n) d n = slice src s n :=
  slice_copy_within dst d src (a := 0) (by omega)

/-- A copy leaves the cells below its destination alone. -/
theorem slice_copy_below (dst : ℕ → T) {d a k : ℕ} (src : ℕ → T) (s n : ℕ) (h : a + k ≤ d) :
    slice (copy dst d src s n) a k = slice dst a k :=
  slice_congr fun i hi => by
    have : ¬ d ≤ a + i := by omega
    simp [copy, this]

/-- A copy appended to the `d` cells in front of it. -/
theorem slice_copy_append (dst : ℕ → T) (d : ℕ) (src : ℕ → T) (s n : ℕ) :
    slice (copy dst d src s n) 0 (d + n) = slice dst 0 d ++ slice src s n := by
  calc slice (copy dst d src s n) 0 (d + n)
      = slice (copy dst d src s n) 0 d ++ slice (copy dst d src s n) (0 + d) n := slice_add _ 0 d n
    _ = slice dst 0 d ++ slice src s n := by
        rw [slice_copy_below dst src s n (by omega), Nat.zero_add, slice_copy]

/-- A cell stored behind the `i` cells in front of it. -/
theorem slice_store (m : ℕ → T) (i : ℕ) (v : T) :
    slice (store m i v) 0 (i + 1) = slice m 0 i ++ [v] := by
  have hbelow : slice (store m i v) 0 i = slice m 0 i := slice_congr fun j hj => by
    have hne : j ≠ i := by omega
    simp [store, hne]
  rw [slice_succ, hbelow]
  simp [store]

/-- A range of the elements of a list. -/
theorem slice_ofList_range [Inhabited T] {l : List T} {s n : ℕ} (h : s + n ≤ l.length) :
    slice (ofList l) s n = (l.drop s).take n := by
  apply List.ext_getElem (by simp; omega)
  intro i hi _
  simp only [slice_length] at hi
  simp [slice, ofList, List.getElem?_eq_getElem (show s + i < l.length by omega)]

theorem slice_ofList [Inhabited T] (l : List T) : slice (ofList l) 0 l.length = l := by
  rw [slice_ofList_range (by omega), List.drop_zero, List.take_length]

end Memory
