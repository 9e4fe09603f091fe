/-
# The grade of a cluster

`getClusterGrade` of `DataProcessor.cpp`: the weights of the hits around the
centre are added in a `uint8_t` and the sum is looked up. A cluster of more
than nine hits, a hit more than one pixel from the centre and a sum that is
not in the table are graded `outlier`.

The grade depends on the hits of the range and on the centre only, not on
where they lie in the buffer (`getClusterGrade_congr`), and of the hits only
on which there are, not on their order (`hitsGrade_perm`).
-/
import Sprint3.Lib.Memory
import Sprint3.Types
import Mathlib.Algebra.BigOperators.Group.List.Basic
import Mathlib.Data.Int.Notation
import Mathlib.Data.UInt

namespace Sprint3

open Memory

/-- `gradeLookup`. -/
def gradeLookup : List (UInt8 × UInt8) :=
  [(0, 0),

   (1, 1), (4, 1), (32, 1), (128, 1), (5, 1), (33, 1), (132, 1), (160, 1),
   (36, 1), (129, 1), (37, 1), (133, 1), (161, 1), (164, 1), (165, 1),

   (64, 2), (65, 2), (68, 2), (69, 2), (2, 2), (34, 2), (130, 2), (162, 2),

   (8, 3), (12, 3), (136, 3), (140, 3),

   (16, 4), (17, 4), (48, 4), (49, 4),

   (3, 5), (6, 5), (9, 5), (20, 5), (40, 5), (96, 5), (144, 5), (192, 5),
   (13, 5), (21, 5), (35, 5), (38, 5), (44, 5), (52, 5), (97, 5), (100, 5),
   (131, 5), (134, 5), (137, 5), (145, 5), (168, 5), (176, 5), (193, 5),
   (196, 5), (53, 5), (101, 5), (141, 5), (163, 5), (166, 5), (172, 5),
   (177, 5), (197, 5),

   (72, 6), (76, 6), (104, 6), (108, 6), (10, 6), (11, 6), (138, 6), (139, 6),
   (18, 6), (22, 6), (50, 6), (54, 6), (80, 6), (81, 6), (208, 6), (209, 6)]

/-- `gridValue`, by row (y) and column (x). -/
def gridValue : List (List UInt8) :=
  [[32, 64, 128],
   [8, 0, 16],
   [1, 2, 4]]

/-- `outlier`: the grade of clusters that do not have a valid one. -/
def outlier : UInt8 := 7

/-- `xOffset` of a hit from the centre. -/
def xOffset (hit centre : Px) : ℤ := hit.coord.x.toNat - centre.coord.x.toNat

/-- `yOffset` of a hit from the centre. -/
def yOffset (hit centre : Px) : ℤ := hit.coord.y.toNat - centre.coord.y.toNat

/-- The grid value at the hit's offsets, each moved by one. -/
def weight (hit centre : Px) : UInt8 :=
  (gridValue.getD (yOffset hit centre + 1).toNat []).getD (xOffset hit centre + 1).toNat 0

/-- The loop over the hits: `none` where it returns `outlier`. -/
def gradeSum (centre : Px) : List Px → UInt8 → Option UInt8
  | [], sum => some sum
  | hit :: hits, sum =>
    if (xOffset hit centre).natAbs > 1 then none
    else if (yOffset hit centre).natAbs > 1 then none
    else gradeSum centre hits (sum + weight hit centre)

/-- The grade of the hits of a range around a centre. -/
def hitsGrade (hits : List Px) (centre : Px) : UInt8 :=
  if hits.length > 9 then outlier
  else
    match gradeSum centre hits 0 with
    | none => outlier
    | some sum => (gradeLookup.lookup sum).getD outlier

/-- `getClusterGrade`; the loop reads `buf[startInd], …, buf[endInd]`. -/
def getClusterGrade (startInd endInd maxEInd : ℕ) (buf : ℕ → Px) : UInt8 :=
  hitsGrade (slice buf startInd (endInd - startInd + 1)) (buf maxEInd)

/-- No grade is beyond `outlier`. -/
theorem hitsGrade_le (hits : List Px) (centre : Px) : hitsGrade hits centre ≤ outlier := by
  unfold hitsGrade
  split
  · decide
  · split
    · decide
    · next sum _ =>
      cases hsum : gradeLookup.lookup sum with
      | none => decide
      | some grade =>
        have htable : gradeLookup.all (·.2 ≤ outlier) = true := rfl
        obtain ⟨pre, post, hentry, -⟩ := List.lookup_eq_some_iff.mp hsum
        exact of_decide_eq_true (List.all_eq_true.mp htable (sum, grade) (by simp [hentry]))

theorem getClusterGrade_congr {buf buf' : ℕ → Px} {s s' n k : ℕ} (hk : k ≤ n)
    (h : ∀ i ≤ n, buf (s + i) = buf' (s' + i)) :
    getClusterGrade s (s + n) (s + k) buf = getClusterGrade s' (s' + n) (s' + k) buf' := by
  unfold getClusterGrade
  rw [h k hk, Nat.add_sub_cancel_left, Nat.add_sub_cancel_left,
    slice_congr fun i hi => h i (by omega)]

/-! ### The order of the hits -/

/-- A hit within one pixel of the centre. -/
def Close (centre hit : Px) : Prop :=
  (xOffset hit centre).natAbs ≤ 1 ∧ (yOffset hit centre).natAbs ≤ 1

instance (centre : Px) : DecidablePred (Close centre) := fun hit => by
  unfold Close
  infer_instance

theorem gradeSum_eq (centre : Px) : ∀ (hits : List Px) (sum : UInt8),
    gradeSum centre hits sum =
      if ∀ hit ∈ hits, Close centre hit then
        some (sum + (hits.map (weight · centre)).sum)
      else none
  | [], sum => by simp [gradeSum]
  | hit :: hits, sum => by
    rw [gradeSum, gradeSum_eq centre hits]
    by_cases hx : (xOffset hit centre).natAbs > 1
    · have hfar : ¬ ∀ h ∈ hit :: hits, Close centre h := fun h =>
        absurd (h hit List.mem_cons_self).1 (by omega)
      rw [if_pos hx, if_neg hfar]
    by_cases hy : (yOffset hit centre).natAbs > 1
    · have hfar : ¬ ∀ h ∈ hit :: hits, Close centre h := fun h =>
        absurd (h hit List.mem_cons_self).2 (by omega)
      rw [if_neg hx, if_pos hy, if_neg hfar]
    · have hclose : Close centre hit := ⟨by omega, by omega⟩
      simp [hx, hy, hclose, add_assoc]

/-- The order of the hits does not change the grade. -/
theorem hitsGrade_perm {hits hits' : List Px} (h : hits.Perm hits') (centre : Px) :
    hitsGrade hits centre = hitsGrade hits' centre := by
  have hclose : (∀ hit ∈ hits, Close centre hit) ↔ ∀ hit ∈ hits', Close centre hit := by
    simp only [h.mem_iff]
  have hsum : (hits.map (weight · centre)).sum = (hits'.map (weight · centre)).sum :=
    (h.map _).sum_eq
  simp only [hitsGrade, gradeSum_eq, h.length_eq, hclose, hsum]

end Sprint3
