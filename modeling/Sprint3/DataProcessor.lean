/-
# Clustering: the segments of the sorted hits

`doProcessing` of `DataProcessor.cpp`: it sorts a batch of raw hits by `toa`,
walks through it once and emplaces one species hit for each cluster.

The walk carries six variables; together they describe the last segment of
the hits read so far, cut wherever a hit comes 5 ticks or more after the one
before it (`ClusterInv`), and what it has closed describes the segments
before (`ClosedInv`). So `doProcessing` appends exactly one species hit for
each segment, in order (`doProcessing_eq`).

The energy of a hit is any function of the pixel into any ordered commutative
monoid: the sums are exact.
-/
import Sprint3.Grade
import Sprint3.Lib.Gaps
import Sprint3.Lib.Peak

namespace Sprint3

open Memory Peak

/-- Sorted by `toa`. -/
def ToaSorted (hits : List Px) : Prop := hits.Pairwise (·.toa.toNat ≤ ·.toa.toNat)

instance : DecidablePred ToaSorted := fun hits => by
  unfold ToaSorted
  infer_instance

/-- `std::sort` with the comparison `a.toa < b.toa`: hits of equal `toa` come
out in any order. -/
structure ToaSort where
  run : List Px → List Px
  perm : ∀ hits, (run hits).Perm hits
  sorted : ∀ hits, ToaSorted (run hits)

/-- A stable sort by `toa`. -/
def stableSort : ToaSort where
  run hits := hits.insertionSort (·.toa.toNat ≤ ·.toa.toNat)
  perm := List.perm_insertionSort _
  sorted := by
    have htotal : Std.Total fun a b : Px => a.toa.toNat ≤ b.toa.toNat :=
      ⟨fun a b => Nat.le_total _ _⟩
    have htrans : IsTrans Px fun a b => a.toa.toNat ≤ b.toa.toNat := ⟨fun _ _ _ => Nat.le_trans⟩
    exact List.pairwise_insertionSort _

variable {E : Type*} [AddCommMonoid E] [LinearOrder E]

/-- The variables of the clustering loop. -/
structure Cluster (E : Type*) where
  clustStartInd : ℕ
  maxEInd : ℕ
  clustTOAStart : UInt64
  clustTOAMax : UInt64
  maxEnergy : E
  totEnergy : E

/-- A closed cluster: the indices `getClusterGrade` is called with, and the
other two arguments of `emplace`. -/
structure Closed (E : Type*) where
  startInd : ℕ
  endInd : ℕ
  maxEInd : ℕ
  toaStart : UInt64
  totEnergy : E

/-- The species hit emplaced for a closed cluster. -/
def Closed.speciesHit (workBuf : ℕ → Px) (c : Closed E) : SpeciesHit E where
  grade := getClusterGrade c.startInd c.endInd c.maxEInd workBuf
  startTOA := c.toaStart
  totalE := c.totEnergy

section Loop

variable (getEnergy : Px → E)

/-- A cluster begins with hit `i`. -/
def Cluster.start (i : ℕ) (hit : Px) : Cluster E where
  clustStartInd := i
  maxEInd := i
  clustTOAStart := hit.toa
  clustTOAMax := hit.toa + 5
  maxEnergy := getEnergy hit
  totEnergy := getEnergy hit

/-- A hit that belongs to the cluster. -/
def Cluster.join (c : Cluster E) (i : ℕ) (curHit : Px) : Cluster E :=
  let curE := getEnergy curHit
  { c with
    clustTOAMax := curHit.toa + 5
    totEnergy := c.totEnergy + curE
    maxEInd := if curE > c.maxEnergy then i else c.maxEInd
    maxEnergy := if curE > c.maxEnergy then curE else c.maxEnergy }

def Cluster.close (c : Cluster E) (endInd : ℕ) : Closed E where
  startInd := c.clustStartInd
  endInd := endInd
  maxEInd := c.maxEInd
  toaStart := c.clustTOAStart
  totEnergy := c.totEnergy

/-- The loop's body at `i`: the open cluster and those closed so far. -/
def clusterStep (workBuf : ℕ → Px) (st : Cluster E × List (Closed E)) (i : ℕ) :
    Cluster E × List (Closed E) :=
  let curHit := workBuf i
  if curHit.toa < st.1.clustTOAMax then (st.1.join getEnergy i curHit, st.2)
  else (Cluster.start getEnergy i curHit, st.2 ++ [st.1.close (i - 1)])

/-- The clusters of the first `workBufElements` hits, the last one closed after the loop. -/
def clusters (workBuf : ℕ → Px) (workBufElements : ℕ) : List (Closed E) :=
  let st := (List.range' 1 (workBufElements - 1)).foldl (clusterStep getEnergy workBuf)
    (Cluster.start getEnergy 0 (workBuf 0), [])
  st.2 ++ [st.1.close (workBufElements - 1)]

/-- `doProcessing`: what it leaves in `speciesHitsQ`. -/
def doProcessing (sort : ToaSort) (speciesHitsQ : List (SpeciesHit E)) (hits : List Px) :
    List (SpeciesHit E) :=
  if hits.length = 0 then speciesHitsQ
  else
    let workBuf := ofList (sort.run hits)
    speciesHitsQ ++ (clusters getEnergy workBuf hits.length).map (Closed.speciesHit workBuf)

/-- What a batch adds to the queue. -/
theorem doProcessing_append (sort : ToaSort) (q : List (SpeciesHit E)) (hits : List Px) :
    doProcessing getEnergy sort q hits = q ++ doProcessing getEnergy sort [] hits := by
  unfold doProcessing
  split <;> simp

theorem doProcessing_grade (sort : ToaSort) (hits : List Px) :
    ∀ h ∈ doProcessing getEnergy sort [] hits, h.grade ≤ outlier := by
  intro h hh
  unfold doProcessing at hh
  split at hh
  · cases hh
  · simp only [List.nil_append] at hh
    obtain ⟨c, -, rfl⟩ := List.mem_map.mp hh
    exact hitsGrade_le _ _

end Loop

/-! ### Segments -/

/-- The later of two neighbours is less than 5 ticks after the earlier. -/
def near (a b : ℕ) : Bool := b < a + 5

theorem near_iff {a b : ℕ} : near a b = true ↔ b < a + 5 := decide_eq_true_iff

theorem not_near_iff {a b : ℕ} : near a b = false ↔ a + 5 ≤ b := by
  rw [← Bool.not_eq_true, near_iff, not_lt]

/-- A list of hits, cut wherever the later of two neighbours is not near the earlier. -/
def segments (hits : List Px) : List (List Px) :=
  hits.splitBy fun a b => near a.toa.toNat b.toa.toNat

/-- The species hit of a segment: its grade relative to its first hit of
maximal energy, the `toa` of its first hit, the sum of its energies. -/
def segmentHit (getEnergy : Px → E) (seg : List Px) : SpeciesHit E where
  grade := getClusterGrade 0 (seg.length - 1) (peakIdx getEnergy seg) (ofList seg)
  startTOA := (seg.headD default).toa
  totalE := (seg.map getEnergy).sum

/-- `toa` values of the decoder: 14 bits on top of a 32-bit offset. -/
def Decoded (p : Px) : Prop := p.toa.toNat < 2 ^ 46

instance : DecidablePred Decoded := fun p => by
  unfold Decoded
  infer_instance

theorem toa_add_five {p : Px} (h : Decoded p) : (p.toa + 5).toNat = p.toa.toNat + 5 := by
  unfold Decoded at h
  rw [UInt64.toNat_add]
  exact Nat.mod_eq_of_lt (by simp; omega)

/-! ### The loop's invariant -/

section Invariant

variable (getEnergy : Px → E) (workBuf : ℕ → Px)

/-- The open cluster after the first `i` hits describes their last segment. -/
structure ClusterInv (i : ℕ) (c : Cluster E) (seg : List Px) : Prop where
  nonempty : seg ≠ []
  range : c.clustStartInd + seg.length = i
  hits : slice workBuf c.clustStartInd seg.length = seg
  centre : c.maxEInd = c.clustStartInd + peakIdx getEnergy seg
  toaStart : c.clustTOAStart = (workBuf c.clustStartInd).toa
  toaMax : c.clustTOAMax = (workBuf (i - 1)).toa + 5
  maxEnergy : c.maxEnergy = getEnergy (workBuf c.maxEInd)
  totEnergy : c.totEnergy = (seg.map getEnergy).sum

/-- A closed cluster describes a segment. -/
structure ClosedInv (c : Closed E) (seg : List Px) : Prop where
  nonempty : seg ≠ []
  range : c.startInd + seg.length = c.endInd + 1
  hits : slice workBuf c.startInd seg.length = seg
  centre : c.maxEInd = c.startInd + peakIdx getEnergy seg
  toaStart : c.toaStart = (workBuf c.startInd).toa
  totEnergy : c.totEnergy = (seg.map getEnergy).sum

/-- After the first `i` hits: the closed clusters and the open one, against their segments. -/
def LoopInv (i : ℕ) (st : Cluster E × List (Closed E)) : Prop :=
  ∃ segs seg, segments (slice workBuf 0 i) = segs ++ [seg] ∧
    ClusterInv getEnergy workBuf i st.1 seg ∧ List.Forall₂ (ClosedInv getEnergy workBuf) st.2 segs

variable {getEnergy workBuf}

theorem ClusterInv.getElem {i : ℕ} {c : Cluster E} {seg : List Px}
    (h : ClusterInv getEnergy workBuf i c seg) {k : ℕ} (hk : k < seg.length) :
    seg[k] = workBuf (c.clustStartInd + k) := by
  have hk' : k < (slice workBuf c.clustStartInd seg.length).length := by simpa using hk
  rw [← slice_getElem workBuf c.clustStartInd seg.length hk']
  congr 1
  exact h.hits.symm

theorem ClusterInv.getLast {i : ℕ} {c : Cluster E} {seg : List Px}
    (h : ClusterInv getEnergy workBuf i c seg) : seg.getLast? = some (workBuf (i - 1)) := by
  have hpos : 0 < seg.length := List.length_pos_iff.mpr h.nonempty
  have hi := h.range
  rw [List.getLast?_eq_some_getLast h.nonempty, List.getLast_eq_getElem, h.getElem]
  congr 2
  omega

/-- The open cluster's maximal energy is maximal in its segment. -/
theorem ClusterInv.le_maxEnergy {i : ℕ} {c : Cluster E} {seg : List Px}
    (h : ClusterInv getEnergy workBuf i c seg) : ∀ p ∈ seg, getEnergy p ≤ c.maxEnergy := by
  intro p hp
  rw [h.maxEnergy, h.centre, ← h.getElem (peakIdx_lt getEnergy h.nonempty)]
  exact le_peak getEnergy (peakIdx_lt getEnergy h.nonempty) p hp

theorem ClusterInv.slice_concat {i : ℕ} {c : Cluster E} {seg : List Px}
    (h : ClusterInv getEnergy workBuf i c seg) :
    slice workBuf c.clustStartInd (seg ++ [workBuf i]).length = seg ++ [workBuf i] := by
  rw [List.length_append, List.length_singleton, slice_succ, h.hits, h.range]

theorem ClusterInv.start (i : ℕ) :
    ClusterInv getEnergy workBuf (i + 1) (Cluster.start getEnergy i (workBuf i)) [workBuf i] where
  nonempty := by simp
  range := by simp [Cluster.start]
  hits := by simp [Cluster.start, slice]
  centre := by simp [Cluster.start]
  toaStart := rfl
  toaMax := rfl
  maxEnergy := rfl
  totEnergy := by simp [Cluster.start]

theorem ClusterInv.join {i : ℕ} {c : Cluster E} {seg : List Px}
    (h : ClusterInv getEnergy workBuf i c seg) :
    ClusterInv getEnergy workBuf (i + 1) (c.join getEnergy i (workBuf i)) (seg ++ [workBuf i]) where
  nonempty := by simp
  range := by
    have hr := h.range
    simp only [Cluster.join, List.length_append, List.length_singleton]
    omega
  hits := h.slice_concat
  centre := by
    by_cases hgt : getEnergy (workBuf i) > c.maxEnergy
    · have habove : ∀ p ∈ seg, getEnergy p < getEnergy (workBuf i) := fun p hp =>
        (h.le_maxEnergy p hp).trans_lt hgt
      simp only [Cluster.join, if_pos hgt]
      rw [peakIdx_concat_gt getEnergy habove, h.range]
    · have hpeak := peakIdx_lt getEnergy h.nonempty
      have hle : getEnergy (workBuf i) ≤ getEnergy seg[peakIdx getEnergy seg] := by
        rw [h.getElem hpeak, ← h.centre, ← h.maxEnergy]
        exact not_lt.mp hgt
      simp only [Cluster.join, if_neg hgt]
      rw [peakIdx_concat_le getEnergy (List.getElem_mem hpeak) hle, h.centre]
  toaStart := h.toaStart
  toaMax := rfl
  maxEnergy := by
    by_cases hgt : getEnergy (workBuf i) > c.maxEnergy
    · simp only [Cluster.join, if_pos hgt]
    · simp only [Cluster.join, if_neg hgt]
      exact h.maxEnergy
  totEnergy := by simp [Cluster.join, h.totEnergy]

theorem ClusterInv.close {i : ℕ} {c : Cluster E} {seg : List Px}
    (h : ClusterInv getEnergy workBuf i c seg) :
    ClosedInv getEnergy workBuf (c.close (i - 1)) seg where
  nonempty := h.nonempty
  range := by
    have hpos : 0 < seg.length := List.length_pos_iff.mpr h.nonempty
    have hr := h.range
    simp only [Cluster.close]
    omega
  hits := h.hits
  centre := h.centre
  toaStart := h.toaStart
  totEnergy := h.totEnergy

theorem loopInv_start : LoopInv getEnergy workBuf 1 (Cluster.start getEnergy 0 (workBuf 0), []) :=
  ⟨[], [workBuf 0], rfl, ClusterInv.start 0, .nil⟩

/-- The loop's test is nearness to the last hit of the open cluster. -/
theorem joins_iff {i : ℕ} {c : Cluster E} {seg : List Px}
    (h : ClusterInv getEnergy workBuf i c seg) (hdec : Decoded (workBuf (i - 1))) :
    (workBuf i).toa < c.clustTOAMax ↔
      near (workBuf (i - 1)).toa.toNat (workBuf i).toa.toNat = true := by
  rw [h.toaMax, UInt64.lt_iff_toNat_lt, toa_add_five hdec, near_iff]

/-- One turn of the loop keeps the invariant. -/
theorem loopInv_step {i : ℕ} {st : Cluster E × List (Closed E)}
    (h : LoopInv getEnergy workBuf i st) (hdec : Decoded (workBuf (i - 1))) :
    LoopInv getEnergy workBuf (i + 1) (clusterStep getEnergy workBuf st i) := by
  obtain ⟨segs, seg, hsplit, hopen, hclosed⟩ := h
  have hsucc : slice workBuf 0 (i + 1) = slice workBuf 0 i ++ [workBuf i] := by
    rw [slice_succ, Nat.zero_add]
  have hjoins := joins_iff hopen hdec
  unfold clusterStep
  by_cases hj : (workBuf i).toa < st.1.clustTOAMax
  · -- the hit joins the open cluster
    simp only [if_pos hj]
    refine ⟨segs, seg ++ [workBuf i], ?_, hopen.join, hclosed⟩
    rw [hsucc]
    refine Gaps.splitBy_concat_near hsplit fun a ha => ?_
    rw [hopen.getLast, Option.mem_some_iff] at ha
    rw [← ha]
    exact hjoins.mp hj
  · -- the hit starts a cluster, the open one is closed
    simp only [if_neg hj]
    refine ⟨segs ++ [seg], [workBuf i], ?_, ClusterInv.start i, ?_⟩
    · have hlast : (slice workBuf 0 i).getLast? = some (workBuf (i - 1)) := by
        have hflat : slice workBuf 0 i = segs.flatten ++ seg := by
          rw [← List.flatten_splitBy (fun a b => near a.toa.toNat b.toa.toNat) (slice workBuf 0 i)]
          exact (congrArg List.flatten hsplit).trans (by simp)
        rw [hflat, List.getLast?_append_of_ne_nil _ hopen.nonempty, hopen.getLast]
      rw [hsucc, ← hsplit]
      refine Gaps.splitBy_concat_far fun a ha => ?_
      rw [hlast, Option.mem_some_iff] at ha
      rw [← ha, ← Bool.not_eq_true]
      exact fun hn => hj (hjoins.mpr hn)
    · exact List.rel_append hclosed (.cons hopen.close .nil)

/-- The whole loop. -/
theorem loopInv_run : ∀ (n : ℕ) {i : ℕ} {st : Cluster E × List (Closed E)},
    LoopInv getEnergy workBuf i st → 0 < i → (∀ k < i + n, Decoded (workBuf k)) →
    LoopInv getEnergy workBuf (i + n) ((List.range' i n).foldl (clusterStep getEnergy workBuf) st)
  | 0, _, _, h, _, _ => h
  | n + 1, i, st, h, hi, hdec => by
    rw [List.range'_succ, List.foldl_cons, show i + (n + 1) = i + 1 + n by omega]
    exact loopInv_run n (loopInv_step h (hdec _ (by omega))) (by omega)
      fun k hk => hdec k (by omega)

variable (getEnergy) in
/-- **The clusters are the segments.** -/
theorem clusters_inv {n : ℕ} (hn : 0 < n) (hdec : ∀ k < n, Decoded (workBuf k)) :
    List.Forall₂ (ClosedInv getEnergy workBuf) (clusters getEnergy workBuf n)
      (segments (slice workBuf 0 n)) := by
  have hstart : LoopInv getEnergy workBuf 1 (Cluster.start getEnergy 0 (workBuf 0), []) :=
    loopInv_start
  have h := loopInv_run (n - 1) hstart Nat.one_pos fun k hk => hdec k (by omega)
  rw [show 1 + (n - 1) = n by omega] at h
  obtain ⟨segs, seg, hsplit, hopen, hclosed⟩ := h
  rw [hsplit]
  exact List.rel_append hclosed (.cons hopen.close .nil)

/-- The species hit of a closed cluster is that of its segment. -/
theorem ClosedInv.speciesHit_eq {c : Closed E} {seg : List Px}
    (h : ClosedInv getEnergy workBuf c seg) :
    c.speciesHit workBuf = segmentHit getEnergy seg := by
  have hpos : 0 < seg.length := List.length_pos_iff.mpr h.nonempty
  have hpeak := peakIdx_lt getEnergy h.nonempty
  have hrange := h.range
  have hcell : ∀ k < seg.length, workBuf (c.startInd + k) = ofList seg k := by
    intro k hk
    have hk' : k < (slice workBuf c.startInd seg.length).length := by simpa using hk
    rw [← slice_getElem workBuf c.startInd seg.length hk', ofList, List.getD_eq_getElem?_getD,
      List.getElem?_eq_getElem hk, Option.getD_some]
    congr 1
    exact h.hits
  have hend : c.endInd = c.startInd + (seg.length - 1) := by omega
  have hgrade : getClusterGrade c.startInd c.endInd c.maxEInd workBuf =
      getClusterGrade 0 (seg.length - 1) (peakIdx getEnergy seg) (ofList seg) := by
    have hcongr : getClusterGrade c.startInd (c.startInd + (seg.length - 1))
          (c.startInd + peakIdx getEnergy seg) workBuf =
        getClusterGrade 0 (0 + (seg.length - 1)) (0 + peakIdx getEnergy seg) (ofList seg) :=
      getClusterGrade_congr (by omega) fun i hi => by rw [hcell i (by omega), Nat.zero_add]
    rw [hend, h.centre, hcongr, Nat.zero_add, Nat.zero_add]
  have hstart : (workBuf c.startInd).toa = (seg.headD default).toa := by
    have h0 := hcell 0 hpos
    rw [Nat.add_zero] at h0
    obtain ⟨p, seg', rfl⟩ := List.exists_cons_of_ne_nil h.nonempty
    rw [h0]
    rfl
  simp only [Closed.speciesHit, segmentHit, hgrade, h.toaStart, hstart, h.totEnergy]

end Invariant

/-! ### `doProcessing` -/

section DoProcessing

variable (getEnergy : Px → E) (sort : ToaSort)

@[simp] theorem segments_nil : segments [] = [] := rfl

theorem ToaSort.length_run (hits : List Px) : (sort.run hits).length = hits.length :=
  (sort.perm hits).length_eq

theorem ToaSort.decoded_run {hits : List Px} (hdec : ∀ p ∈ hits, Decoded p) :
    ∀ p ∈ sort.run hits, Decoded p :=
  fun p hp => hdec p ((sort.perm hits).mem_iff.mp hp)

/-- The clusters of a batch are the segments of the sorted batch. -/
theorem clusters_sorted {hits : List Px} (hne : hits ≠ []) (hdec : ∀ p ∈ hits, Decoded p) :
    List.Forall₂ (ClosedInv getEnergy (ofList (sort.run hits)))
      (clusters getEnergy (ofList (sort.run hits)) hits.length) (segments (sort.run hits)) := by
  have hlen := sort.length_run hits
  have hcell : ∀ k < hits.length, Decoded (ofList (sort.run hits) k) := by
    intro k hk
    rw [← hlen] at hk
    rw [ofList, List.getD_eq_getElem?_getD, List.getElem?_eq_getElem hk, Option.getD_some]
    exact sort.decoded_run hdec _ (List.getElem_mem hk)
  have h := clusters_inv getEnergy (List.length_pos_iff.mpr hne) hcell
  rwa [← hlen, slice_ofList, hlen] at h

/-- **One species hit a segment.** -/
theorem doProcessing_eq (q : List (SpeciesHit E)) {hits : List Px}
    (hdec : ∀ p ∈ hits, Decoded p) :
    doProcessing getEnergy sort q hits =
      q ++ (segments (sort.run hits)).map (segmentHit getEnergy) := by
  unfold doProcessing
  rcases eq_or_ne hits [] with rfl | hne
  · have hrun : sort.run [] = [] := (sort.perm []).eq_nil
    simp [hrun]
  · have hpos : hits.length ≠ 0 := fun h0 => hne (List.length_eq_zero_iff.mp h0)
    rw [if_neg hpos]
    simp only [Gaps.map_eq_of_forall₂ (clusters_sorted getEnergy sort hne hdec)
      fun c seg h => h.speciesHit_eq]

/-- The first hits of successive segments of a sorted list are 5 ticks apart. -/
theorem segments_start {hits : List Px} (hs : ToaSorted hits) :
    (segments hits).IsChain fun a b =>
      (a.headD default).toa.toNat + 5 ≤ (b.headD default).toa.toNat := by
  have hfar := List.isChain_getLast_head_splitBy
    (fun a b : Px => near a.toa.toNat b.toa.toNat) hits
  have hflat := List.flatten_splitBy (fun a b : Px => near a.toa.toNat b.toa.toNat) hits
  refine hfar.imp_of_mem_imp fun a b ha _ h => ?_
  obtain ⟨hane, hbne, hlast⟩ := h
  have hsub : a.Sublist hits := hflat ▸ List.sublist_flatten_of_mem ha
  obtain ⟨p, a', rfl⟩ := List.exists_cons_of_ne_nil hane
  obtain ⟨p', b', rfl⟩ := List.exists_cons_of_ne_nil hbne
  have hle : p.toa.toNat ≤ ((p :: a').getLast hane).toa.toNat := by
    rcases List.mem_cons.mp (List.getLast_mem hane) with h | h
    · rw [h]
    · exact (List.pairwise_cons.mp (hs.sublist hsub)).1 _ h
  have hgap := not_near_iff.mp hlast
  simp only [List.head_cons] at hgap
  simp only [List.headD_cons]
  omega

/-- **Clustering is exactly "maximal chains of gaps below 5 ticks".**
`doProcessing` appends one species hit for each segment of the sorted hits,
in order, and nothing else; the segments partition the sorted hits at the
gaps of 5 ticks or more; every call of `getClusterGrade` gets the range of
its segment and a centre within it of maximal energy; and successive species
hits start at least 5 ticks apart. -/
theorem doProcessing_clusters (q : List (SpeciesHit E)) (hits : List Px)
    (hdec : ∀ p ∈ hits, Decoded p) :
    let s := sort.run hits
    doProcessing getEnergy sort q hits = q ++ (segments s).map (segmentHit getEnergy) ∧
    ((segments s).flatten = s ∧ [] ∉ segments s ∧
      (∀ seg ∈ segments s, seg.IsChain fun a b => b.toa.toNat < a.toa.toNat + 5) ∧
      (segments s).IsChain fun a b => ∃ ha hb,
        (a.getLast ha).toa.toNat + 5 ≤ (b.head hb).toa.toNat) ∧
    (hits ≠ [] → List.Forall₂
      (fun c seg => c.startInd ≤ c.maxEInd ∧ c.maxEInd ≤ c.endInd ∧
        slice (ofList s) c.startInd (c.endInd - c.startInd + 1) = seg ∧
        ∀ p ∈ seg, getEnergy p ≤ getEnergy (ofList s c.maxEInd))
      (clusters getEnergy (ofList s) hits.length) (segments s)) ∧
    ((segments s).map (segmentHit getEnergy)).IsChain
      (fun a b => a.startTOA.toNat + 5 ≤ b.startTOA.toNat) ∧
    (hits = [] → doProcessing getEnergy sort q hits = q) := by
  intro s
  obtain ⟨-, hne, hch, hfar⟩ := List.splitBy_eq_iff.mp
    (rfl : s.splitBy (fun a b => near a.toa.toNat b.toa.toNat) = segments s)
  refine ⟨doProcessing_eq getEnergy sort q hdec,
    ⟨List.flatten_splitBy _ _, hne, fun seg hseg => ?_, hfar.imp fun a b h => ?_⟩,
    fun hits_ne => ?_, ?_, ?_⟩
  · exact (hch seg hseg).imp fun a b h => near_iff.mp h
  · obtain ⟨ha, hb, h⟩ := h
    exact ⟨ha, hb, not_near_iff.mp h⟩
  · refine (clusters_sorted getEnergy sort hits_ne hdec).imp fun c seg h => ?_
    have hpeak := peakIdx_lt getEnergy h.nonempty
    have hr := h.range
    have hc := h.centre
    have hspan : c.endInd - c.startInd + 1 = seg.length := by omega
    refine ⟨by omega, by omega, by rw [hspan]; exact h.hits, fun p hp => ?_⟩
    have hk : peakIdx getEnergy seg < (slice (ofList s) c.startInd seg.length).length := by
      simpa using hpeak
    have hcell : seg[peakIdx getEnergy seg] = ofList s c.maxEInd := by
      rw [hc, ← slice_getElem (ofList s) c.startInd seg.length hk]
      congr 1
      exact h.hits.symm
    rw [← hcell]
    exact le_peak getEnergy (peakIdx_lt getEnergy h.nonempty) p hp
  · rw [List.isChain_map]
    exact segments_start (sort.sorted hits)
  · rintro rfl
    rfl

end DoProcessing

/-- The hits of the test `detectMultipleClusters`. -/
def fakeData : List Px :=
  [⟨⟨10, 10⟩, 1, 0, 100⟩, ⟨⟨9, 10⟩, 2, 0, 1⟩,
   ⟨⟨10, 10⟩, 10, 0, 100⟩, ⟨⟨11, 10⟩, 11, 0, 1⟩, ⟨⟨11, 9⟩, 9, 0, 1⟩, ⟨⟨9, 9⟩, 11, 0, 1⟩]

/-- The test's two clusters, of grades 3 and 5. -/
theorem doProcessing_fakeData :
    let getEnergy := fun p : Px => p.tot.toNat
    doProcessing getEnergy stableSort [] fakeData =
        (segments (stableSort.run fakeData)).map (segmentHit getEnergy) ∧
      doProcessing getEnergy stableSort [] fakeData = [⟨3, 1, 101⟩, ⟨5, 9, 103⟩] := by
  intro getEnergy
  have h := (doProcessing_clusters getEnergy stableSort [] fakeData (by decide)).1
  exact ⟨h, by decide +kernel⟩

end Sprint3
