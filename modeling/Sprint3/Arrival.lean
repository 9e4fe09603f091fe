/-
# What the order of arrival decides

`doProcessing` sorts by `toa` alone, so hits with the same `toa` stay in the
order in which they arrived (or in any order, with an unstable sort), and the
centre of a cluster is its first hit of maximal energy. Two runs on the same
hits in different orders cut the same clusters, with the same start times and
energies (`starts_and_energies`). The grades agree on a cluster whose possible
centres, the earliest of its hits of maximal energy, all give it one grade
(`segmentHit_settled`); on any other cluster some two arrangements of the hits
give two grades (`unsettled_differs`).
-/
import Sprint3.DataProcessor
import Mathlib.Algebra.Order.Ring.Rat
import Mathlib.Data.List.TakeWhile

namespace Sprint3

open Memory Peak

variable {E : Type*} [LinearOrder E]

section Centre

variable (getEnergy : Px → E)

/-- A hit that can come to be the centre of its cluster: of maximal energy
and, among such hits, of minimal `toa`. -/
def Candidate (seg : List Px) (c : Px) : Prop :=
  c ∈ seg ∧ ∀ p ∈ seg, getEnergy p ≤ getEnergy c ∧
    (getEnergy p = getEnergy c → c.toa.toNat ≤ p.toa.toNat)

/-- All possible centres give the cluster one grade. -/
def Settled (seg : List Px) : Prop :=
  ∀ c c', Candidate getEnergy seg c → Candidate getEnergy seg c' →
    hitsGrade seg c = hitsGrade seg c'

/-- Every cluster of a batch is settled. -/
def CentresSettled (hits : List Px) : Prop :=
  ∀ seg ∈ segments (stableSort.run hits), Settled getEnergy seg

end Centre

variable {getEnergy : Px → E}

theorem Candidate.perm {seg seg' : List Px} (hp : seg.Perm seg') {c : Px}
    (h : Candidate getEnergy seg c) : Candidate getEnergy seg' c :=
  ⟨hp.mem_iff.mp h.1, fun p hp' => h.2 p (hp.mem_iff.mpr hp')⟩

theorem Settled.perm {seg seg' : List Px} (hp : seg.Perm seg') (h : Settled getEnergy seg) :
    Settled getEnergy seg' := fun c c' hc hc' => by
  rw [← hitsGrade_perm hp, ← hitsGrade_perm hp]
  exact h c c' (hc.perm hp.symm) (hc'.perm hp.symm)

/-! ### One cluster -/

/-- The first hit of maximal energy of a sorted cluster is the earliest of them. -/
theorem peak_candidate {seg : List Px} (hpeak : peakIdx getEnergy seg < seg.length)
    (hs : ToaSorted seg) : Candidate getEnergy seg seg[peakIdx getEnergy seg] := by
  refine ⟨List.getElem_mem _, fun p hp => ⟨le_peak getEnergy hpeak p hp, fun he => ?_⟩⟩
  obtain ⟨i, hi, rfl⟩ := List.getElem_of_mem hp
  rcases Nat.lt_trichotomy i (peakIdx getEnergy seg) with hlt | heq | hgt
  · exact absurd he (lt_peak getEnergy hpeak hlt).ne
  · simp only [heq, le_refl]
  · exact List.pairwise_iff_getElem.mp hs _ _ _ _ hgt

variable [AddCommMonoid E]

theorem segmentHit_grade {seg : List Px} (hpeak : peakIdx getEnergy seg < seg.length) :
    (segmentHit getEnergy seg).grade = hitsGrade seg seg[peakIdx getEnergy seg] := by
  have hpos : 0 < seg.length := by omega
  have hcell : ofList seg (peakIdx getEnergy seg) = seg[peakIdx getEnergy seg] := by
    rw [ofList, List.getD_eq_getElem?_getD, List.getElem?_eq_getElem hpeak, Option.getD_some]
  simp only [segmentHit, getClusterGrade, Nat.sub_zero, Nat.sub_add_cancel hpos, slice_ofList, hcell]

theorem head_toa_eq {seg seg' : List Px} (hp : seg.Perm seg') (hs : ToaSorted seg)
    (hs' : ToaSorted seg') : (seg.headD default).toa = (seg'.headD default).toa := by
  have hkeys := Gaps.map_key_eq (fun p : Px => p.toa.toNat) hp hs hs'
  cases seg with
  | nil => rw [hp.symm.eq_nil]
  | cons p seg =>
    cases seg' with
    | nil => cases hp.eq_nil
    | cons p' seg' => exact UInt64.toNat_inj.mp (List.cons.inj hkeys).1

variable (getEnergy) in
/-- The order of a sorted cluster does not change its start and its energy. -/
theorem segmentHit_perm {seg seg' : List Px} (hp : seg.Perm seg') (hs : ToaSorted seg)
    (hs' : ToaSorted seg') :
    (segmentHit getEnergy seg).startTOA = (segmentHit getEnergy seg').startTOA ∧
      (segmentHit getEnergy seg).totalE = (segmentHit getEnergy seg').totalE :=
  ⟨head_toa_eq hp hs hs', (hp.map getEnergy).sum_eq⟩

/-- Nor its grade, if it is settled. -/
theorem segmentHit_settled {seg seg' : List Px} (hp : seg.Perm seg') (hs : ToaSorted seg)
    (hs' : ToaSorted seg') (hset : Settled getEnergy seg) :
    segmentHit getEnergy seg = segmentHit getEnergy seg' := by
  obtain ⟨hstart, henergy⟩ := segmentHit_perm getEnergy hp hs hs'
  rcases eq_or_ne seg [] with rfl | hne
  · rw [hp.symm.eq_nil]
  have hne' : seg' ≠ [] := fun h0 => hne (by rw [h0] at hp; exact hp.eq_nil)
  have hgrade : (segmentHit getEnergy seg).grade = (segmentHit getEnergy seg').grade := by
    have hpeak := peakIdx_lt getEnergy hne
    have hpeak' := peakIdx_lt getEnergy hne'
    rw [segmentHit_grade hpeak, segmentHit_grade hpeak', ← hitsGrade_perm hp]
    exact hset _ _ (peak_candidate hpeak hs) ((peak_candidate hpeak' hs').perm hp.symm)
  cases hl : segmentHit getEnergy seg
  cases hr : segmentHit getEnergy seg'
  simp_all

/-! ### Two arrangements -/

theorem toaSorted_of_mem {s seg : List Px} (hs : ToaSorted s) (hseg : seg ∈ segments s) :
    ToaSorted seg :=
  hs.sublist ((List.flatten_splitBy _ s) ▸ List.sublist_flatten_of_mem hseg)

/-- Two sorted arrangements of the same hits have the same clusters. -/
theorem segments_perm {s s' : List Px} (hp : s.Perm s') (hs : ToaSorted s) (hs' : ToaSorted s') :
    List.Forall₂ List.Perm (segments s) (segments s') :=
  Gaps.splitBy_perm (fun p : Px => p.toa.toNat) near (fun x => near_iff.mpr (by omega)) hp hs hs'

theorem runs_perm (sort sort' : ToaSort) {hits hits' : List Px} (hp : hits.Perm hits') :
    (sort.run hits).Perm (sort'.run hits') :=
  (sort.perm hits).trans (hp.trans (sort'.perm hits').symm)

/-- The clusters of two arrangements, side by side. -/
theorem segments_related (sort sort' : ToaSort) {hits hits' : List Px} (hp : hits.Perm hits') :
    List.Forall₂ (fun seg seg' => seg ∈ segments (sort.run hits) ∧ seg.Perm seg' ∧
        ToaSorted seg ∧ ToaSorted seg')
      (segments (sort.run hits)) (segments (sort'.run hits')) := by
  have h := segments_perm (runs_perm sort sort' hp) (sort.sorted hits) (sort'.sorted hits')
  refine List.forall₂_iff_get.mpr ⟨h.length_eq, fun i hi hi' => ?_⟩
  have hmem := List.get_mem (segments (sort.run hits)) ⟨i, hi⟩
  have hmem' := List.get_mem (segments (sort'.run hits')) ⟨i, hi'⟩
  exact ⟨hmem, (List.forall₂_iff_get.mp h).2 i hi hi', toaSorted_of_mem (sort.sorted hits) hmem,
    toaSorted_of_mem (sort'.sorted hits') hmem'⟩

theorem starts_and_energies (sort sort' : ToaSort) {hits hits' : List Px} (hp : hits.Perm hits') :
    ((segments (sort.run hits)).map (segmentHit getEnergy)).map (fun h => (h.startTOA, h.totalE)) =
      ((segments (sort'.run hits')).map (segmentHit getEnergy)).map
        fun h => (h.startTOA, h.totalE) := by
  rw [List.map_map, List.map_map]
  refine Gaps.map_eq_of_forall₂ (segments_related sort sort' hp) fun seg seg' h => ?_
  obtain ⟨-, hperm, hs, hs'⟩ := h
  obtain ⟨hstart, henergy⟩ := segmentHit_perm getEnergy hperm hs hs'
  simp only [Function.comp_apply, hstart, henergy]

/-- The `k`-th species hits agree if the `k`-th cluster is settled. -/
theorem settled_agrees (sort sort' : ToaSort) {hits hits' : List Px} (hp : hits.Perm hits')
    {k : ℕ} {seg : List Px} (hk : (segments (sort.run hits))[k]? = some seg)
    (hset : Settled getEnergy seg) :
    ((segments (sort.run hits)).map (segmentHit getEnergy))[k]? =
      ((segments (sort'.run hits')).map (segmentHit getEnergy))[k]? := by
  obtain ⟨hlen, hrel⟩ := List.forall₂_iff_get.mp (segments_related sort sort' hp)
  obtain ⟨hlt, rfl⟩ := List.getElem?_eq_some_iff.mp hk
  obtain ⟨-, hperm, hs, hs'⟩ := hrel k hlt (hlen ▸ hlt)
  rw [List.getElem?_map, List.getElem?_map, hk, List.getElem?_eq_getElem (hlen ▸ hlt),
    Option.map_some, Option.map_some]
  exact congrArg some (segmentHit_settled hperm hs hs' hset)

/-! ### An unsettled cluster -/

/-- The cluster with `c` in front of the other hits of its `toa`. -/
def inFront (seg : List Px) (c : Px) : List Px :=
  (seg.erase c).orderedInsert (·.toa.toNat ≤ ·.toa.toNat) c

theorem inFront_perm {seg : List Px} {c : Px} (hc : c ∈ seg) : (inFront seg c).Perm seg :=
  (List.perm_orderedInsert _ _ _).trans (List.perm_cons_erase hc).symm

theorem inFront_sorted {seg : List Px} (hs : ToaSorted seg) (c : Px) :
    ToaSorted (inFront seg c) := by
  have htotal : Std.Total fun a b : Px => a.toa.toNat ≤ b.toa.toNat :=
    ⟨fun a b => Nat.le_total _ _⟩
  have htrans : IsTrans Px fun a b => a.toa.toNat ≤ b.toa.toNat := ⟨fun _ _ _ => Nat.le_trans⟩
  exact (hs.sublist List.erase_sublist).orderedInsert c _

/-- A candidate put in front of the other hits of its `toa` is the centre. -/
theorem segmentHit_inFront {seg : List Px} {c : Px} (hc : Candidate getEnergy seg c) :
    (segmentHit getEnergy (inFront seg c)).grade = hitsGrade seg c := by
  have hperm := inFront_perm hc.1
  have hne : inFront seg c ≠ [] := fun h0 => by
    rw [h0] at hperm
    exact List.ne_nil_of_mem hc.1 hperm.symm.eq_nil
  rw [segmentHit_grade (peakIdx_lt getEnergy hne), hitsGrade_perm hperm]
  congr 1
  set before := (seg.erase c).takeWhile fun b => ¬ c.toa.toNat ≤ b.toa.toNat with hbefore
  set after := (seg.erase c).dropWhile fun b => ¬ c.toa.toNat ≤ b.toa.toNat with hafter
  have hsplit : inFront seg c = before ++ c :: after := List.orderedInsert_eq_take_drop _ _ _
  have hmem : ∀ p ∈ inFront seg c, p ∈ seg := fun p hp => hperm.mem_iff.mp hp
  have hlt : ∀ p ∈ before, getEnergy p < getEnergy c := by
    intro p hp
    have hearly : ¬ c.toa.toNat ≤ p.toa.toNat := by simpa using List.mem_takeWhile_imp hp
    obtain ⟨hle, htie⟩ := hc.2 p (hmem p (by simp [hsplit, hp]))
    exact lt_of_le_of_ne hle fun he => hearly (htie he)
  have hle : ∀ p ∈ after, getEnergy p ≤ getEnergy c := fun p hp =>
    (hc.2 p (hmem p (by simp [hsplit, hp]))).1
  have hidx : peakIdx getEnergy (inFront seg c) = before.length := by
    rw [hsplit, peakIdx_append_cons getEnergy hlt hle]
  have hcell : (inFront seg c)[before.length]? = some c := by simp [hsplit]
  refine Option.some_inj.mp ?_
  rw [← List.getElem?_eq_getElem, hidx, hcell]

/-- The hits sorted, with `c` in front of the other hits of its `toa` in the
segment between `segs` and `segs'`. -/
def arrange (segs : List (List Px)) (seg : List Px) (segs' : List (List Px)) (c : Px) : List Px :=
  (segs ++ inFront seg c :: segs').flatten

section Arrange

variable {s : List Px} {segs segs' : List (List Px)} {seg : List Px}

theorem arrange_perm (hs : segments s = segs ++ seg :: segs') {c : Px} (hc : c ∈ seg) :
    (arrange segs seg segs' c).Perm s := by
  have hflat : s = (segs ++ seg :: segs').flatten :=
    (List.flatten_splitBy _ s).symm.trans (congrArg List.flatten hs)
  rw [arrange, hflat, List.flatten_append, List.flatten_append, List.flatten_cons, List.flatten_cons]
  exact ((inFront_perm hc).append_right _).append_left _

theorem arrange_segments (hs : segments s = segs ++ seg :: segs') (hsort : ToaSorted s) {c : Px}
    (hc : c ∈ seg) : segments (arrange segs seg segs' c) = segs ++ inFront seg c :: segs' := by
  have hseg : ToaSorted seg := toaSorted_of_mem hsort (by rw [hs]; simp)
  have hflat : (segs ++ seg :: segs').flatten = s :=
    (congrArg List.flatten hs).symm.trans (List.flatten_splitBy _ s)
  refine Gaps.splitBy_of_keys (fun p : Px => p.toa.toNat) near (segs ++ seg :: segs') ?_ ?_
  · rw [hflat]
    exact hs
  · rw [List.map_append, List.map_append, List.map_cons, List.map_cons,
      Gaps.map_key_eq (fun p : Px => p.toa.toNat) (inFront_perm hc).symm hseg
        (inFront_sorted hseg c)]

theorem arrange_sorted (hs : segments s = segs ++ seg :: segs') (hsort : ToaSorted s) {c : Px}
    (hc : c ∈ seg) : ToaSorted (arrange segs seg segs' c) := by
  have hseg : ToaSorted seg := toaSorted_of_mem hsort (by rw [hs]; simp)
  have hflat : (segs ++ seg :: segs').flatten = s :=
    (congrArg List.flatten hs).symm.trans (List.flatten_splitBy _ s)
  have hkeys : (arrange segs seg segs' c).map (·.toa.toNat) = s.map (·.toa.toNat) := by
    rw [arrange, ← hflat, List.flatten_append, List.flatten_append, List.flatten_cons,
      List.flatten_cons, List.map_append, List.map_append, List.map_append, List.map_append,
      Gaps.map_key_eq (fun p : Px => p.toa.toNat) (inFront_perm hc).symm hseg
        (inFront_sorted hseg c)]
  have h := List.pairwise_map.mpr hsort
  rw [← hkeys] at h
  exact List.pairwise_map.mp h

end Arrange

theorem stableSort_of_sorted {hits : List Px} (hs : ToaSorted hits) : stableSort.run hits = hits :=
  hs.insertionSort_eq

/-- Two arrangements that put two candidates of a cluster in front show
whether their grades differ. -/
theorem unsettled_differs {hits : List Px} (hdec : ∀ p ∈ hits, Decoded p)
    (hsame : ∀ hits', hits.Perm hits' →
      doProcessing getEnergy stableSort [] hits' = doProcessing getEnergy stableSort [] hits) :
    CentresSettled getEnergy hits := by
  intro seg hseg c c' hc hc'
  obtain ⟨segs, segs', hs⟩ := List.append_of_mem hseg
  have hsorted := stableSort.sorted hits
  have hout : ∀ d ∈ seg, doProcessing getEnergy stableSort [] hits =
      segs.map (segmentHit getEnergy) ++ segmentHit getEnergy (inFront seg d) ::
        segs'.map (segmentHit getEnergy) := by
    intro d hd
    have hperm : hits.Perm (arrange segs seg segs' d) :=
      ((arrange_perm hs hd).trans (stableSort.perm hits)).symm
    rw [← hsame _ hperm, doProcessing_eq _ _ _ fun p hp => hdec p (hperm.mem_iff.mpr hp),
      stableSort_of_sorted (arrange_sorted hs hsorted hd), arrange_segments hs hsorted hd]
    simp
  have heq := (hout c hc.1).symm.trans (hout c' hc'.1)
  have hhit := (List.cons.inj (List.append_cancel_left heq)).1
  rw [← segmentHit_inFront hc, ← segmentHit_inFront hc', hhit]

/-- **What the order of arrival decides.** Two runs on the same hits in any
two orders, with any two sorts by `toa`, append as many species hits, with the
same start times and energies in the same order, and the same species hit for
every settled cluster. The whole output is independent of the order exactly
if every cluster is settled. -/
theorem arrival_order (getEnergy : Px → E) (hits : List Px) (hdec : ∀ p ∈ hits, Decoded p) :
    (∀ (sort sort' : ToaSort) (hits' : List Px), hits.Perm hits' →
      let out : List (SpeciesHit E) := doProcessing getEnergy sort [] hits
      let out' : List (SpeciesHit E) := doProcessing getEnergy sort' [] hits'
      out.map (fun h => (h.startTOA, h.totalE)) = out'.map (fun h => (h.startTOA, h.totalE)) ∧
        ∀ (k : ℕ) (seg : List Px), (segments (sort.run hits))[k]? = some seg → Settled getEnergy seg →
          out[k]? = out'[k]?) ∧
    ((∀ hits', hits.Perm hits' →
      doProcessing getEnergy stableSort [] hits' = doProcessing getEnergy stableSort [] hits) ↔
        CentresSettled getEnergy hits) := by
  have heq : ∀ (sort : ToaSort) {hits' : List Px}, hits.Perm hits' →
      doProcessing getEnergy sort [] hits' =
        (segments (sort.run hits')).map (segmentHit getEnergy) := fun sort hits' hp => by
    rw [doProcessing_eq _ _ _ fun p hp' => hdec p (hp.mem_iff.mpr hp'), List.nil_append]
  refine ⟨fun sort sort' hits' hp => ?_, fun hsame => unsettled_differs hdec hsame,
    fun hset hits' hp => ?_⟩
  · intro out out'
    simp only [out, out', heq sort (.refl hits), heq sort' hp]
    exact ⟨starts_and_energies sort sort' hp, fun k seg hk hset =>
      settled_agrees sort sort' hp hk hset⟩
  · rw [heq stableSort hp, heq stableSort (.refl hits)]
    refine (Gaps.map_eq_of_forall₂ (segments_related stableSort stableSort hp) ?_).symm
    rintro seg seg' ⟨hmem, hperm, hs, hs'⟩
    exact segmentHit_settled hperm hs hs' (hset seg hmem)

/-- Two hits of one cluster, side by side, with the same `toa` and the same energy. -/
def tiedHits : List Px := [⟨⟨10, 10⟩, 1, 0, 50⟩, ⟨⟨11, 10⟩, 1, 0, 50⟩]

/-- Whichever of them arrives first is the centre: the other lies to its right
(grade 4) or to its left (grade 3). -/
theorem arrival_order_tiedHits :
    ¬ ∀ (getEnergy : Px → ℚ) (sort : ToaSort) (hits hits' : List Px),
      (∀ p ∈ hits, Decoded p) → hits.Perm hits' →
      doProcessing getEnergy sort [] hits = doProcessing getEnergy sort [] hits' := by
  intro h
  have hrev := h (fun p => p.tot.toNat) stableSort tiedHits tiedHits.reverse (by decide)
    (List.reverse_perm tiedHits).symm
  exact absurd hrev (by decide +kernel)

/-- The tied hits keep their start and their energy. -/
theorem arrival_order_tiedHits_start :
    (doProcessing (fun p => p.tot.toNat) stableSort [] tiedHits).map
        (fun h => (h.startTOA, h.totalE)) =
      (doProcessing (fun p => p.tot.toNat) stableSort [] tiedHits.reverse).map
        fun h => (h.startTOA, h.totalE) :=
  ((arrival_order (fun p => p.tot.toNat) tiedHits (by decide)).1 stableSort stableSort
    tiedHits.reverse (List.reverse_perm tiedHits).symm).1

end Sprint3
