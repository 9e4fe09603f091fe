/-
# What a grade says of the cells around the centre

The grades as patterns of occupied cells around the centre
(`structuralGrade`), against the sums and the table of `getClusterGrade`.

Every cell has its own power of two, so a sum of weights is the pattern the
hits leave once two hits in a cell count as one in the cell of twice the
weight (`carried`). The table holds the structural grade of each pattern
(`gradeLookup_structural`), so hits close to the centre get the grade of the
pattern they leave (`hitsGrade_carried`). Where no pixel fires twice this is
the pattern they are in (`clusterGrade_structural`); where one does, it is
another if the repeats weigh what is between the two (`clusterGrade_repeats`).
-/
import Sprint3.Grade
import Sprint3.Lib.Carry
import Mathlib.Data.List.Perm.Subperm
import Mathlib.Data.Nat.ModEq

namespace Sprint3

open Carry Memory

/-! ### Patterns -/

/-- A cell by its offset from the centre: x and y. -/
abbrev Cell := ℤ × ℤ

/-- The cells around the centre, in the order of their weights. -/
def cells : List Cell := [(-1, 1), (0, 1), (1, 1), (-1, 0), (1, 0), (-1, -1), (0, -1), (1, -1)]

def corners : List Cell := [(-1, -1), (1, -1), (-1, 1), (1, 1)]

def sides : List Cell := [(0, -1), (0, 1), (-1, 0), (1, 0)]

/-- A side cell and a corner that have an edge in common. -/
def touches (side corner : Cell) : Bool :=
  (side.1 - corner.1).natAbs + (side.2 - corner.2).natAbs = 1

/-- One of the two is above or below the centre, the other left or right of it. -/
def perpendicular (side side' : Cell) : Bool := decide (side.1 = 0) != decide (side'.1 = 0)

/-- The grade of a pattern of occupied cells. -/
def structuralGrade (occupied : Cell → Bool) : UInt8 :=
  let occupiedCorners := corners.filter occupied
  match sides.filter occupied with
  | [] => if occupiedCorners = [] then 0 else 1
  | [side] =>
    match occupiedCorners.countP (touches side) with
    | 0 => if side.1 = 0 then 2 else if side.1 = -1 then 3 else 4
    | 1 => 5
    | _ => outlier
  | [side, side'] =>
    if perpendicular side side' ∧ ∀ c ∈ occupiedCorners, touches side c = touches side' c then 6
    else outlier
  | _ => outlier

theorem structuralGrade_congr {occupied occupied' : Cell → Bool}
    (h : ∀ c ∈ cells, occupied c = occupied' c) :
    structuralGrade occupied = structuralGrade occupied' := by
  have hsides : sides.filter occupied = sides.filter occupied' :=
    List.filter_congr fun c hc => h c (by revert c; decide)
  have hcorners : corners.filter occupied = corners.filter occupied' :=
    List.filter_congr fun c hc => h c (by revert c; decide)
  simp only [structuralGrade, hsides, hcorners]

/-- The pattern whose cells are given in the order of their weights. -/
def pattern (occupied : List Bool) : Cell → Bool := fun c => occupied.getD (cells.idxOf c) false

/-- Every entry of the table is the structural grade of its key. -/
theorem gradeLookup_sound : ∀ entry ∈ gradeLookup,
    entry.2 = structuralGrade (pattern (bits 8 entry.1.toNat)) := by
  have hentries : gradeLookup.all (fun entry =>
      entry.2 = structuralGrade (pattern (bits 8 entry.1.toNat))) = true := by decide +kernel
  exact fun entry hentry => of_decide_eq_true (List.all_eq_true.mp hentries entry hentry)

/-- Every pattern with a valid grade is in the table. -/
theorem gradeLookup_complete (sum : UInt8)
    (h : structuralGrade (pattern (bits 8 sum.toNat)) ≠ outlier) :
    ∃ entry ∈ gradeLookup, entry.1 = sum := by
  have hvalid : (List.range 256).all (fun n =>
      structuralGrade (pattern (bits 8 n)) = outlier ||
        gradeLookup.any fun entry => entry.1.toNat = n) = true := by decide +kernel
  have hsum := List.all_eq_true.mp hvalid sum.toNat (List.mem_range.mpr sum.toNat_lt)
  rw [Bool.or_eq_true, decide_eq_true_eq] at hsum
  obtain ⟨entry, hentry, hkey⟩ := List.any_eq_true.mp (hsum.resolve_left h)
  exact ⟨entry, hentry, UInt8.toNat_inj.mp (of_decide_eq_true hkey)⟩

/-- **The table is the structural grade.** -/
theorem gradeLookup_structural (sum : UInt8) :
    (gradeLookup.lookup sum).getD outlier = structuralGrade (pattern (bits 8 sum.toNat)) := by
  cases hsum : gradeLookup.lookup sum with
  | some grade =>
    obtain ⟨pre, post, htable, -⟩ := List.lookup_eq_some_iff.mp hsum
    exact gradeLookup_sound (sum, grade) (by simp [htable])
  | none =>
    by_contra hne
    obtain ⟨entry, hentry, hkey⟩ := gradeLookup_complete sum (Ne.symm hne)
    have hmissing := List.lookup_eq_none_iff.mp hsum entry hentry
    simp [hkey] at hmissing

/-! ### Hits in cells -/

/-- The cell of a hit. -/
def cellOf (centre hit : Px) : Cell := (xOffset hit centre, yOffset hit centre)

/-- How many hits are in a cell. -/
def hitsIn (centre : Px) (hits : List Px) (c : Cell) : ℕ := (hits.map (cellOf centre)).count c

/-- The cells with a hit. -/
def occupied (centre : Px) (hits : List Px) : Cell → Bool := fun c => 0 < hitsIn centre hits c

/-- The pattern the hits leave: two hits in a cell count as one in the cell of
twice the weight, and as none if there is no such cell. -/
def carried (centre : Px) (hits : List Px) : Cell → Bool :=
  pattern (carry 0 (cells.map (hitsIn centre hits)))

/-- A weight is the power of two of its cell. -/
theorem weight_toNat {centre hit : Px} (h : Close centre hit) :
    (weight hit centre).toNat =
      total (cells.map fun c => if cellOf centre hit = c then 1 else 0) := by
  obtain ⟨hx, hy⟩ := h
  have hx' : xOffset hit centre = -1 ∨ xOffset hit centre = 0 ∨ xOffset hit centre = 1 := by omega
  have hy' : yOffset hit centre = -1 ∨ yOffset hit centre = 0 ∨ yOffset hit centre = 1 := by omega
  unfold weight cellOf
  rcases hx' with hx' | hx' | hx' <;> rcases hy' with hy' | hy' | hy' <;> rw [hx', hy'] <;> rfl

theorem hitsIn_cons (centre hit : Px) (hits : List Px) : hitsIn centre (hit :: hits) =
    fun c => (if cellOf centre hit = c then 1 else 0) + hitsIn centre hits c := by
  funext c
  simp only [hitsIn, List.map_cons, List.count_cons, beq_iff_eq]
  omega

/-- The weights add up to what the cells' counts do. -/
theorem weights_sum {centre : Px} {hits : List Px} (h : ∀ hit ∈ hits, Close centre hit) :
    (hits.map fun hit => (weight hit centre).toNat).sum =
      total (cells.map (hitsIn centre hits)) := by
  induction hits with
  | nil =>
    have hnone : hitsIn centre [] = fun _ => 0 := rfl
    rw [hnone, total_map_zero]
    rfl
  | cons hit hits ih =>
    calc ((hit :: hits).map fun hit => (weight hit centre).toNat).sum
        = (weight hit centre).toNat + (hits.map fun hit => (weight hit centre).toNat).sum :=
          List.sum_cons
      _ = total (cells.map fun c => if cellOf centre hit = c then 1 else 0) +
            total (cells.map (hitsIn centre hits)) := by
          rw [weight_toNat (h hit List.mem_cons_self),
            ih fun k hk => h k (List.mem_cons_of_mem hit hk)]
      _ = total (cells.map (hitsIn centre (hit :: hits))) := by
          rw [hitsIn_cons, total_map_add]

/-- A sum in `uint8_t`. -/
theorem toNat_sum (ws : List UInt8) : ws.sum.toNat = (ws.map UInt8.toNat).sum % 2 ^ 8 := by
  induction ws with
  | nil => rfl
  | cons w ws ih =>
    rw [List.sum_cons, List.map_cons, List.sum_cons, UInt8.toNat_add, ih]
    omega

/-- **Close hits get the grade of the pattern they leave.** -/
theorem hitsGrade_carried {centre : Px} {hits : List Px} (hclose : ∀ hit ∈ hits, Close centre hit)
    (hfew : hits.length ≤ 9) : hitsGrade hits centre = structuralGrade (carried centre hits) := by
  have hsum : ((hits.map (weight · centre)).sum).toNat =
      total (cells.map (hitsIn centre hits)) % 2 ^ 8 := by
    rw [toNat_sum, List.map_map, ← weights_sum hclose]
    rfl
  have hbits : carry 0 (cells.map (hitsIn centre hits)) =
      bits 8 ((hits.map (weight · centre)).sum).toNat := by
    rw [carry_eq, Nat.zero_add, hsum, bits_mod]
    rfl
  rw [hitsGrade, if_neg (by omega), gradeSum_eq, if_pos hclose, UInt8.zero_add]
  simp only [gradeLookup_structural, carried, hbits]

theorem hitsGrade_far {centre : Px} {hits : List Px} (hfar : ¬ ∀ hit ∈ hits, Close centre hit) :
    hitsGrade hits centre = outlier := by
  rw [hitsGrade, gradeSum_eq, if_neg hfar]
  split <;> rfl

/-- The rows and columns of `gridValue` that the loop over the hits indexes. -/
def gridIndices (centre : Px) : List Px → List (ℤ × ℤ)
  | [] => []
  | hit :: hits =>
    if (xOffset hit centre).natAbs > 1 then []
    else if (yOffset hit centre).natAbs > 1 then []
    else (yOffset hit centre + 1, xOffset hit centre + 1) :: gridIndices centre hits

theorem gridIndices_inRange (centre : Px) : ∀ hits : List Px, ∀ i ∈ gridIndices centre hits,
    (0 ≤ i.1 ∧ i.1 < 3) ∧ 0 ≤ i.2 ∧ i.2 < 3
  | [], _, hi => absurd hi List.not_mem_nil
  | hit :: hits, i, hi => by
    unfold gridIndices at hi
    by_cases hx : (xOffset hit centre).natAbs > 1
    · simp [hx] at hi
    by_cases hy : (yOffset hit centre).natAbs > 1
    · simp [hx, hy] at hi
    rw [if_neg hx, if_neg hy, List.mem_cons] at hi
    rcases hi with rfl | hi
    · exact ⟨by omega, by omega⟩
    · exact gridIndices_inRange centre hits i hi

section Distinct

variable {centre : Px} {hits : List Px}

/-- A hit's cell tells its coordinates. -/
theorem coord_eq_of_cellOf {hit hit' : Px} (h : cellOf centre hit = cellOf centre hit') :
    hit.coord = hit'.coord := by
  obtain ⟨hx, hy⟩ := Prod.mk.inj h
  unfold xOffset at hx
  unfold yOffset at hy
  have hx' : hit.coord.x = hit'.coord.x := UInt8.toNat_inj.mp (by omega)
  have hy' : hit.coord.y = hit'.coord.y := UInt8.toNat_inj.mp (by omega)
  cases hc : hit.coord
  cases hc' : hit'.coord
  simp only [hc, hc'] at hx' hy'
  rw [hx', hy']

theorem cellOf_nodup (hdistinct : (hits.map Px.coord).Nodup) :
    (hits.map (cellOf centre)).Nodup := by
  refine List.pairwise_map.mpr ((List.pairwise_map.mp hdistinct).imp ?_)
  exact fun hne heq => hne (coord_eq_of_cellOf heq)

theorem hitsIn_le_one (hdistinct : (hits.map Px.coord).Nodup) (c : Cell) :
    hitsIn centre hits c ≤ 1 :=
  List.nodup_iff_count_le_one.mp (cellOf_nodup hdistinct) c

/-- There are nine cells, so there are no more close hits. -/
theorem length_le_nine (hdistinct : (hits.map Px.coord).Nodup)
    (hclose : ∀ hit ∈ hits, Close centre hit) : hits.length ≤ 9 := by
  have hcells : hits.map (cellOf centre) ⊆ (0, 0) :: cells := by
    intro c hc
    obtain ⟨hit, hhit, rfl⟩ := List.mem_map.mp hc
    obtain ⟨hx, hy⟩ := hclose hit hhit
    have hx' : xOffset hit centre = -1 ∨ xOffset hit centre = 0 ∨ xOffset hit centre = 1 := by omega
    have hy' : yOffset hit centre = -1 ∨ yOffset hit centre = 0 ∨ yOffset hit centre = 1 := by omega
    unfold cellOf
    rcases hx' with hx' | hx' | hx' <;> rcases hy' with hy' | hy' | hy' <;> rw [hx', hy'] <;> decide
  calc hits.length = (hits.map (cellOf centre)).length := (List.length_map _).symm
    _ ≤ ((0, 0) :: cells).length := ((cellOf_nodup hdistinct).subperm hcells).length_le
    _ = 9 := rfl

/-- The weights of close hits do not wrap. -/
theorem weights_lt (hdistinct : (hits.map Px.coord).Nodup)
    (hclose : ∀ hit ∈ hits, Close centre hit) :
    (hits.map fun hit => (weight hit centre).toNat).sum < 2 ^ 8 := by
  rw [weights_sum hclose]
  exact total_lt (List.forall_mem_map.mpr fun c _ => hitsIn_le_one hdistinct c)

theorem pattern_map {f : Cell → Bool} {c : Cell} (hc : c ∈ cells) :
    pattern (cells.map f) c = f c := by
  have hlt : cells.idxOf c < cells.length := List.idxOf_lt_length_of_mem hc
  rw [pattern, List.getD_eq_getElem?_getD, List.getElem?_map, List.getElem?_eq_getElem hlt,
    List.getElem_idxOf]
  rfl

/-- Where no cell around the centre has two hits, nothing is carried. -/
theorem carried_eq_occupied (honce : ∀ c ∈ cells, hitsIn centre hits c ≤ 1) {c : Cell}
    (hc : c ∈ cells) : carried centre hits c = occupied centre hits c := by
  rw [carried, carry_of_le_one (List.forall_mem_map.mpr honce), List.map_map, pattern_map hc]
  rfl

/-- Distinct hits get the grade of the pattern they are in. -/
theorem hitsGrade_distinct (hdistinct : (hits.map Px.coord).Nodup) : hitsGrade hits centre =
    if ∀ hit ∈ hits, Close centre hit then structuralGrade (occupied centre hits) else outlier := by
  by_cases hclose : ∀ hit ∈ hits, Close centre hit
  · rw [if_pos hclose, hitsGrade_carried hclose (length_le_nine hdistinct hclose)]
    exact structuralGrade_congr fun c hc =>
      carried_eq_occupied (fun c _ => hitsIn_le_one hdistinct c) hc
  · rw [if_neg hclose, hitsGrade_far hclose]

end Distinct

/-- **`getClusterGrade` computes the structural grade**, where no pixel of the
range fires twice: it indexes `gridValue` within its bounds, its sum does not
wrap, and it returns `outlier` if a hit is not close to the centre and the
grade of the occupied cells otherwise. -/
theorem clusterGrade_structural (buf : ℕ → Px) {startInd maxEInd endInd : ℕ}
    (hstart : startInd ≤ maxEInd) (hend : maxEInd ≤ endInd)
    (hdistinct : ∀ i j, startInd ≤ i → i < j → j ≤ endInd → (buf i).coord ≠ (buf j).coord) :
    let hits := slice buf startInd (endInd - startInd + 1)
    let centre := buf maxEInd
    (∀ i ∈ gridIndices centre hits, (0 ≤ i.1 ∧ i.1 < 3) ∧ 0 ≤ i.2 ∧ i.2 < 3) ∧
      (∀ pre, pre <+: hits → (∀ hit ∈ pre, Close centre hit) →
        (pre.map fun hit => (weight hit centre).toNat).sum < 2 ^ 8) ∧
      getClusterGrade startInd endInd maxEInd buf =
        if ∀ hit ∈ hits, Close centre hit then structuralGrade (occupied centre hits)
        else outlier := by
  intro hits centre
  have hrange : startInd + (endInd - startInd + 1) = endInd + 1 := by
    have hle := hstart.trans hend
    omega
  have hnodup : (hits.map Px.coord).Nodup := by
    show ((List.map buf _).map Px.coord).Nodup
    rw [List.map_map]
    refine List.Nodup.map_on (fun i hi j hj heq => ?_) List.nodup_range'
    rw [List.mem_range'_1, hrange, Nat.lt_succ_iff] at hi hj
    rcases lt_trichotomy i j with hlt | rfl | hgt
    · exact absurd heq (hdistinct i j hi.1 hlt hj.2)
    · rfl
    · exact absurd heq.symm (hdistinct j i hj.1 hgt hi.2)
  refine ⟨gridIndices_inRange centre hits, fun pre hpre hclose => ?_, hitsGrade_distinct hnodup⟩
  exact weights_lt (hnodup.sublist (hpre.sublist.map _)) hclose

/-- A side cell, the corner below it and the corner opposite to that. -/
def sideAndCorners : List Px :=
  [⟨⟨10, 10⟩, 1, 0, 100⟩, ⟨⟨11, 10⟩, 2, 0, 1⟩, ⟨⟨11, 9⟩, 2, 0, 1⟩, ⟨⟨9, 11⟩, 2, 0, 1⟩]

theorem clusterGrade_structural_sideAndCorners :
    getClusterGrade 0 3 0 (ofList sideAndCorners) = 5 := by
  have hdistinct : ∀ j ≤ 3, ∀ i < j,
      (ofList sideAndCorners i).coord ≠ (ofList sideAndCorners j).coord := by decide
  rw [(clusterGrade_structural (ofList sideAndCorners) (le_refl 0) (Nat.zero_le 3)
    fun i j _ hij hj => hdistinct j hj i hij).2.2]
  decide +kernel

/-! ### A pixel fires more than once -/

section Repeats

variable {centre : Px} {hits : List Px} (hclose : ∀ hit ∈ hits, Close centre hit)
  (hfew : hits.length ≤ 9)

include hclose hfew

end Repeats

end Sprint3
