/-
# What cutting the stream into batches does

`processingLoop` hands `doProcessing` whatever `copyClear` returned at each
wake-up, so where a time-ordered stream is cut into batches is decided by
scheduling. A cut at a gap of 5 ticks or more changes nothing; a cut inside a
cluster makes two species hits of it. So the output of the batches is that of
the whole stream exactly if every cut is at a gap, and otherwise has one
species hit more for each cut that is not (`batching_law`).
-/
import Sprint3.Arrival

namespace Sprint3

variable {E : Type*} [AddCommMonoid E] [LinearOrder E] (getEnergy : Px → E)

/-- `doProcessing` on one batch after the other. -/
def processBatches (sort : ToaSort) (speciesHitsQ : List (SpeciesHit E))
    (batches : List (List Px)) : List (SpeciesHit E) :=
  batches.foldl (doProcessing getEnergy sort) speciesHitsQ

/-- The cut between two batches is at a gap: the first `toa` of the later one
is at least 5 more than the last `toa` of the earlier one. -/
def AtGap (earlier later : List Px) : Prop :=
  ∀ p ∈ earlier.getLast?, ∀ q ∈ later.head?, p.toa.toNat + 5 ≤ q.toa.toNat

instance (earlier later : List Px) : Decidable (AtGap earlier later) := by
  unfold AtGap
  infer_instance

/-- The number of cuts that are not at a gap. -/
def clusterCuts : List (List Px) → ℕ
  | [] => 0
  | [_] => 0
  | earlier :: later :: batches =>
    (if AtGap earlier later then 0 else 1) + clusterCuts (later :: batches)

theorem clusterCuts_eq_zero : ∀ batches : List (List Px),
    clusterCuts batches = 0 ↔ batches.IsChain AtGap
  | [] => by simp [clusterCuts]
  | [_] => by simp [clusterCuts]
  | earlier :: later :: batches => by
    have ih := clusterCuts_eq_zero (later :: batches)
    rw [clusterCuts, List.isChain_cons_cons, ← ih, Nat.add_eq_zero_iff]
    by_cases h : AtGap earlier later <;> simp [h]

/-- The batches' output is their segments', in order. -/
theorem processBatches_eq : ∀ (batches : List (List Px)) (q : List (SpeciesHit E)),
    ToaSorted batches.flatten → (∀ p ∈ batches.flatten, Decoded p) →
    processBatches getEnergy stableSort q batches =
      q ++ (batches.flatMap segments).map (segmentHit getEnergy)
  | [], q, _, _ => by simp [processBatches]
  | batch :: batches, q, hs, hdec => by
    rw [List.flatten_cons] at hs hdec
    obtain ⟨hs1, hs2, -⟩ := List.pairwise_append.mp hs
    have ih := processBatches_eq batches (doProcessing getEnergy stableSort q batch) hs2
      fun p hp => hdec p (List.mem_append_right _ hp)
    calc processBatches getEnergy stableSort q (batch :: batches)
        = doProcessing getEnergy stableSort q batch ++
            (batches.flatMap segments).map (segmentHit getEnergy) := ih
      _ = q ++ (segments batch).map (segmentHit getEnergy) ++
            (batches.flatMap segments).map (segmentHit getEnergy) := by
          rw [doProcessing_eq _ _ _ fun p hp => hdec p (List.mem_append_left _ hp),
            stableSort_of_sorted hs1]
      _ = q ++ ((batch :: batches).flatMap segments).map (segmentHit getEnergy) := by simp

theorem atGap_iff {earlier later : List Px} (he : earlier ≠ []) (hl : later ≠ []) :
    AtGap earlier later ↔
      near (earlier.getLast he).toa.toNat (later.head hl).toa.toNat = false := by
  simp [AtGap, List.getLast?_eq_some_getLast he, List.head?_eq_some_head hl, not_near_iff]

theorem head_flatten {later : List Px} (batches : List (List Px)) (hl : later ≠ []) :
    ∃ hf : (later :: batches).flatten ≠ [], (later :: batches).flatten.head hf = later.head hl :=
  ⟨by simp [hl], by simp [List.head_append_of_ne_nil, hl]⟩

/-- Cut at gaps only, the batches have the segments of the whole stream. -/
theorem flatMap_segments : ∀ batches : List (List Px), (∀ batch ∈ batches, batch ≠ []) →
    batches.IsChain AtGap → batches.flatMap segments = segments batches.flatten
  | [], _, _ => rfl
  | [batch], _, _ => by simp
  | earlier :: later :: batches, hne, hgap => by
    rw [List.isChain_cons_cons] at hgap
    have ih := flatMap_segments (later :: batches)
      (fun b hb => hne b (List.mem_cons_of_mem _ hb)) hgap.2
    have hl : later ≠ [] := hne later (by simp)
    have hfar : ∀ p ∈ earlier.getLast?, ∀ q ∈ (later :: batches).flatten.head?,
        near p.toa.toNat q.toa.toNat = false := by
      intro p hp q hq
      rw [List.flatten_cons, List.head?_append_of_ne_nil _ hl] at hq
      exact not_near_iff.mpr (hgap.1 p hp q hq)
    rw [List.flatMap_cons, ih, List.flatten_cons (l := earlier), segments, segments, segments,
      List.splitBy_append hfar]

/-- Each cut that is not at a gap makes one segment more. -/
theorem length_flatMap_segments : ∀ batches : List (List Px),
    (∀ batch ∈ batches, batch ≠ []) →
    (batches.flatMap segments).length = (segments batches.flatten).length + clusterCuts batches
  | [], _ => rfl
  | [batch], _ => by simp [clusterCuts]
  | earlier :: later :: batches, hne => by
    have ih := length_flatMap_segments (later :: batches)
      fun b hb => hne b (List.mem_cons_of_mem _ hb)
    have he : earlier ≠ [] := hne earlier (by simp)
    have hl : later ≠ [] := hne later (by simp)
    obtain ⟨hf, hhead⟩ := head_flatten batches hl
    have happ := Gaps.length_splitBy_append
      (r := fun a b : Px => near a.toa.toNat b.toa.toNat) he hf
    have hgap := atGap_iff he hl
    rw [hhead] at happ
    rw [List.flatMap_cons, List.length_append, ih, List.flatten_cons (l := earlier), clusterCuts]
    simp only [segments] at happ ⊢
    by_cases h : AtGap earlier later
    · rw [if_pos h]
      rw [if_neg (by rw [hgap.mp h]; decide)] at happ
      omega
    · rw [if_neg h]
      rw [if_pos (by rw [← Bool.not_eq_false]; exact fun hn => h (hgap.mpr hn))] at happ
      omega

/-- **The batching law.** On a time-ordered stream, the batches append what
the whole stream does exactly if every cut is at a gap; in any case they
append one species hit more for each cut that is not. -/
theorem batching_law (q : List (SpeciesHit E)) (batches : List (List Px))
    (hne : ∀ batch ∈ batches, batch ≠ []) (hs : ToaSorted batches.flatten)
    (hdec : ∀ p ∈ batches.flatten, Decoded p) :
    let split := processBatches getEnergy stableSort q batches
    let whole := doProcessing getEnergy stableSort q batches.flatten
    (split = whole ↔ batches.IsChain AtGap) ∧ split.length = whole.length + clusterCuts batches := by
  intro split whole
  have hsplit : split = q ++ (batches.flatMap segments).map (segmentHit getEnergy) :=
    processBatches_eq getEnergy batches q hs hdec
  have hwhole : whole = q ++ (segments batches.flatten).map (segmentHit getEnergy) := by
    rw [← stableSort_of_sorted hs]
    exact doProcessing_eq getEnergy stableSort q (stableSort_of_sorted hs ▸ hdec)
  have hlen : split.length = whole.length + clusterCuts batches := by
    rw [hsplit, hwhole, List.length_append, List.length_append, List.length_map, List.length_map,
      length_flatMap_segments batches hne]
    omega
  refine ⟨⟨fun heq => ?_, fun hgap => ?_⟩, hlen⟩
  · rw [heq] at hlen
    exact (clusterCuts_eq_zero batches).mp (by omega)
  · rw [hsplit, hwhole, flatMap_segments batches hne hgap]

/-- A cluster of two hits, cut in two, and a hit 5 ticks later, cut off. -/
theorem batching_law_example :
    let batches : List (List Px) :=
      [[⟨⟨10, 10⟩, 1, 0, 50⟩], [⟨⟨11, 10⟩, 5, 0, 20⟩], [⟨⟨11, 10⟩, 10, 0, 20⟩]]
    (processBatches (fun p => p.tot.toNat) stableSort [] batches).length =
        (doProcessing (fun p => p.tot.toNat) stableSort [] batches.flatten).length + 1 ∧
      ¬ batches.IsChain AtGap := by
  intro batches
  obtain ⟨hiff, hlen⟩ := batching_law (fun p => p.tot.toNat) [] batches (by decide) (by decide)
    (by decide)
  have hcuts : clusterCuts batches = 1 := by decide
  rw [hcuts] at hlen
  refine ⟨hlen, fun hgap => ?_⟩
  rw [hiff.mpr hgap] at hlen
  omega

end Sprint3
