/-
# The energy of a hit

`DataProcessor::getEnergy`, in real numbers. With a pixel's constants loaded,
its energy before the correction at 918 keV is the one whose response is the
hit's `tot` (`energy_inverts`); corrected or not, and without a calibration
too, it grows with `tot` (`energy_strictMono`), so the centre of a cluster has
the largest `tot` of the hits on its pixel.
-/
import Sprint3.Calibration
import Sprint3.DataProcessor
import Sprint3.Lib.Response

namespace Sprint3

open Memory Response

/-- The energy by a pixel's constants, not corrected. -/
noncomputable def CalibConstants.energy (lookup : CalibConstants ℝ) (tot : UInt16) : ℝ :=
  let k := lookup.bat - tot.toNat
  lookup.ita * (tot.toNat + lookup.atb + √(k * k + lookup.fac))

/-- What becomes of an energy above 918 keV. -/
noncomputable def distortion (energy : ℝ) : ℝ :=
  if energy > 918 then energy - 0.888 * (energy - 918) else energy

namespace DataProcessor

/-- `getEnergy`. -/
noncomputable def getEnergy (d : DataProcessor ℝ) (px : Px) : ℝ :=
  if !d.calibLoaded then px.tot.toNat
  else distortion ((d.lookup px.coord).energy px.tot)

end DataProcessor

/-! ### The response curve -/

theorem energy_ofFiles (a b c t : ℝ) (tot : UInt16) :
    (CalibConstants.ofFiles a b c t).energy tot = energyOf a b c t tot.toNat := by
  have hfac : 4 * a * c = (a + a) * (c + c) := by ring
  simp only [CalibConstants.energy, CalibConstants.ofFiles, energyOf, two_mul, hfac]

theorem distortion_eq (energy : ℝ) :
    distortion energy = if energy ≤ 918 then energy else 918 + 0.112 * (energy - 918) := by
  unfold distortion
  by_cases hhigh : energy > 918
  · rw [if_pos hhigh, if_neg (not_le.mpr hhigh)]
    ring
  · rw [if_neg hhigh, if_pos (not_lt.mp hhigh)]

theorem distortion_strictMono : StrictMono distortion := by
  intro e e' hlt
  rw [distortion_eq, distortion_eq]
  by_cases he : e ≤ 918
  · by_cases he' : e' ≤ 918
    · rwa [if_pos he, if_pos he']
    · rw [if_pos he, if_neg he']
      linarith
  · rw [if_neg he, if_neg (by linarith)]
    linarith

section Loaded

variable {files : String → Option (CalibFile ℝ)} {calibFolderPath : String} {d : DataProcessor ℝ}

theorem loadEnergyCalib_loaded (hload : (loadEnergyCalib files calibFolderPath d).2 = true) :
    (loadEnergyCalib files calibFolderPath d).1.calibLoaded = true := by
  revert hload
  unfold loadEnergyCalib
  simp only
  split_ifs
  · nofun
  · nofun
  · nofun
  · nofun
  · exact fun _ => rfl

/-- **The energy inverts the response curve.** With an accepted calibration
whose constants `a` and `c` of the pixel are positive, the energy of a hit
before the correction is the only one above `t` with the response `tot`; the
energy returned is this one, or this one corrected above 918 keV. -/
theorem energy_inverts (hload : (loadEnergyCalib files calibFolderPath d).2 = true) (px : Px)
    (ha : 0 < (calibNumbers files calibFolderPath "/a.txt").getD (pixelIdx px.coord) 0)
    (hc : 0 < (calibNumbers files calibFolderPath "/c.txt").getD (pixelIdx px.coord) 0) :
    let d' := (loadEnergyCalib files calibFolderPath d).1
    let a := (calibNumbers files calibFolderPath "/a.txt").getD (pixelIdx px.coord) 0
    let b := (calibNumbers files calibFolderPath "/b.txt").getD (pixelIdx px.coord) 0
    let c := (calibNumbers files calibFolderPath "/c.txt").getD (pixelIdx px.coord) 0
    let t := (calibNumbers files calibFolderPath "/t.txt").getD (pixelIdx px.coord) 0
    let E := (d'.lookup px.coord).energy px.tot
    (t < E ∧ a * E + b - c / (E - t) = px.tot.toNat) ∧
      (∀ E', t < E' → a * E' + b - c / (E' - t) = px.tot.toNat → E' = E) ∧
      d'.getEnergy px = if E ≤ 918 then E else 918 + 0.112 * (E - 918) := by
  intro d' a b c t E
  have hE : E = energyOf a b c t px.tot.toNat := by
    show (d'.lookup px.coord).energy px.tot = _
    rw [loadEnergyCalib_lookup hload, energy_ofFiles]
  refine ⟨?_, fun E' hE' hresponse => ?_, ?_⟩
  · rw [hE]
    exact ⟨lt_energyOf b t ha hc _, response_energyOf b t ha hc _⟩
  · rw [hE]
    exact eq_energyOf b t ha hc hE' hresponse
  · rw [DataProcessor.getEnergy, loadEnergyCalib_loaded hload, Bool.not_true,
      if_neg Bool.false_ne_true, distortion_eq]

end Loaded

/-- A file of ones. -/
noncomputable def onesFile : CalibFile ℝ :=
  List.replicate 256 (List.replicate 256 (.number 1))

/-- With ones for all constants, the energy of a `tot` of 0. -/
theorem energy_inverts_ones :
    let d := (loadEnergyCalib (fun _ => some onesFile) "" ⟨[], false⟩).1
    let E := (d.lookup ⟨0, 0⟩).energy 0
    1 < E ∧ 1 * E + 1 - 1 / (E - 1) = (0 : UInt16).toNat := by
  have hcount : leadingNumbers onesFile = chipArea := by decide +kernel
  have hload : (loadEnergyCalib (fun _ => some onesFile) "" ⟨[], false⟩).2 = true :=
    loadEnergyCalib_true.mpr (by simp [CalibCounted, calibFiles, hcount])
  have hone : ∀ name,
      (calibNumbers (fun _ => some onesFile) "" name).getD (pixelIdx ⟨0, 0⟩) 0 = 1 :=
    fun _ => rfl
  have hpos : (0 : ℝ) < 1 := one_pos
  have h := (energy_inverts hload ⟨⟨0, 0⟩, 0, 0, 0⟩ (by rw [hone]; exact hpos)
    (by rw [hone]; exact hpos)).1
  simpa only [hone] using h

/-! ### The largest `tot` -/

/-- A pixel's entry comes from files with positive `a` and `c`. -/
def Calibrated (d : DataProcessor ℝ) (coord : Coord) : Prop :=
  ∃ a b c t, 0 < a ∧ 0 < c ∧ d.lookup coord = .ofFiles a b c t

/-- On one pixel the energy grows with `tot`. -/
theorem getEnergy_lt {d : DataProcessor ℝ} {px px' : Px} (hcoord : px.coord = px'.coord)
    (hcalib : d.calibLoaded = true → Calibrated d px.coord) (htot : px.tot < px'.tot) :
    d.getEnergy px < d.getEnergy px' := by
  have hlt : (px.tot.toNat : ℝ) < px'.tot.toNat := by
    exact_mod_cast UInt16.lt_iff_toNat_lt.mp htot
  unfold DataProcessor.getEnergy
  cases hloaded : d.calibLoaded with
  | false => simpa using hlt
  | true =>
    obtain ⟨a, b, c, t, ha, hc, hlookup⟩ := hcalib hloaded
    simp only [Bool.not_true, Bool.false_eq_true, ↓reduceIte]
    rw [← hcoord, hlookup, energy_ofFiles, energy_ofFiles]
    exact distortion_strictMono (energyOf_strictMono b t ha hc hlt)

section Centre

variable {E : Type*} [AddCommMonoid E] [LinearOrder E] {getEnergy : Px → E} {workBuf : ℕ → Px}

/-- Before hit `i`, no hit of a cluster has more energy than the cluster's centre. -/
structure CentreInv (getEnergy : Px → E) (workBuf : ℕ → Px) (i : ℕ)
    (st : Cluster E × List (Closed E)) : Prop where
  maxEnergy : st.1.maxEnergy = getEnergy (workBuf st.1.maxEInd)
  inOpen : ∀ j, st.1.clustStartInd ≤ j → j < i → getEnergy (workBuf j) ≤ st.1.maxEnergy
  inClosed : ∀ c ∈ st.2, ∀ j, c.startInd ≤ j → j ≤ c.endInd →
    getEnergy (workBuf j) ≤ getEnergy (workBuf c.maxEInd)

omit [AddCommMonoid E] in
theorem CentreInv.close {i : ℕ} {st : Cluster E × List (Closed E)} (hi : 0 < i)
    (h : CentreInv getEnergy workBuf i st) : ∀ c ∈ st.2 ++ [st.1.close (i - 1)], ∀ j,
      c.startInd ≤ j → j ≤ c.endInd → getEnergy (workBuf j) ≤ getEnergy (workBuf c.maxEInd) := by
  intro c hc j hstart hend
  rcases List.mem_append.mp hc with hc | hc
  · exact h.inClosed c hc j hstart hend
  · obtain rfl := List.mem_singleton.mp hc
    simp only [Cluster.close] at hstart hend ⊢
    exact h.maxEnergy ▸ h.inOpen j hstart (by omega)

theorem centreInv_step {i : ℕ} {st : Cluster E × List (Closed E)} (hi : 0 < i)
    (h : CentreInv getEnergy workBuf i st) :
    CentreInv getEnergy workBuf (i + 1) (clusterStep getEnergy workBuf st i) := by
  unfold clusterStep
  by_cases hj : (workBuf i).toa < st.1.clustTOAMax
  · -- the hit joins the open cluster
    simp only [if_pos hj]
    by_cases hgt : getEnergy (workBuf i) > st.1.maxEnergy
    · refine ⟨by simp only [Cluster.join, if_pos hgt], fun j hstart hlt => ?_, h.inClosed⟩
      simp only [Cluster.join, if_pos hgt] at hstart ⊢
      rcases Nat.lt_succ_iff_lt_or_eq.mp hlt with hlt | rfl
      · exact (h.inOpen j hstart hlt).trans hgt.le
      · exact le_refl _
    · refine ⟨by simpa only [Cluster.join, if_neg hgt] using h.maxEnergy, fun j hstart hlt => ?_,
        h.inClosed⟩
      simp only [Cluster.join, if_neg hgt] at hstart ⊢
      rcases Nat.lt_succ_iff_lt_or_eq.mp hlt with hlt | rfl
      · exact h.inOpen j hstart hlt
      · exact not_lt.mp hgt
  · -- the hit starts a cluster, the open one is closed
    simp only [if_neg hj]
    refine ⟨rfl, fun j hstart hlt => ?_, h.close hi⟩
    simp only [Cluster.start] at hstart ⊢
    rw [Nat.le_antisymm (Nat.lt_succ_iff.mp hlt) hstart]

theorem centreInv_run : ∀ (n : ℕ) {i : ℕ} {st : Cluster E × List (Closed E)}, 0 < i →
    CentreInv getEnergy workBuf i st →
    CentreInv getEnergy workBuf (i + n) ((List.range' i n).foldl (clusterStep getEnergy workBuf) st)
  | 0, _, _, _, h => h
  | n + 1, i, st, hi, h => by
    rw [List.range'_succ, List.foldl_cons, show i + (n + 1) = i + 1 + n by omega]
    exact centreInv_run n (Nat.succ_pos i) (centreInv_step hi h)

/-- No hit of a cluster has more energy than its centre. -/
theorem clusters_centre {n : ℕ} (hn : 0 < n) : ∀ c ∈ clusters getEnergy workBuf n, ∀ j,
    c.startInd ≤ j → j ≤ c.endInd → getEnergy (workBuf j) ≤ getEnergy (workBuf c.maxEInd) := by
  have hstart : CentreInv getEnergy workBuf 1 (Cluster.start getEnergy 0 (workBuf 0), []) := by
    refine ⟨rfl, fun j _ hlt => ?_, nofun⟩
    rw [Nat.lt_one_iff.mp hlt]
    exact le_refl _
  have h := centreInv_run (n - 1) Nat.one_pos hstart
  rw [show 1 + (n - 1) = n by omega] at h
  exact h.close hn

end Centre

/-- **The energy grows with `tot`**, at a pixel that is calibrated or without
a calibration; so the centre of a cluster has the largest `tot` of the hits of
the cluster on its pixel. -/
theorem energy_strictMono (d : DataProcessor ℝ) (coord : Coord)
    (hcalib : d.calibLoaded = true → Calibrated d coord) :
    (∀ px px', px.coord = coord → px'.coord = coord → px.tot < px'.tot →
      d.getEnergy px < d.getEnergy px') ∧
    ∀ (sort : ToaSort) (hits : List Px), hits ≠ [] →
      let workBuf := ofList (sort.run hits)
      ∀ c ∈ clusters d.getEnergy workBuf hits.length, (workBuf c.maxEInd).coord = coord →
        ∀ i, c.startInd ≤ i → i ≤ c.endInd → (workBuf i).coord = coord →
          (workBuf i).tot ≤ (workBuf c.maxEInd).tot := by
  have hmono : ∀ px px' : Px, px.coord = coord → px'.coord = coord → px.tot < px'.tot →
      d.getEnergy px < d.getEnergy px' := by
    rintro px px' rfl hcoord htot
    exact getEnergy_lt hcoord.symm hcalib htot
  refine ⟨hmono, ?_⟩
  intro sort hits hne workBuf c hc hcentre i hstart hend hi
  have hle := clusters_centre (List.length_pos_iff.mpr hne) c hc i hstart hend
  by_contra hgt
  exact absurd (hmono _ _ hcentre hi (UInt16.not_le.mp hgt)) (not_lt.mpr hle)

/-- Two hits on a pixel with ones for constants. -/
theorem energy_strictMono_ones :
    let d : DataProcessor ℝ := ⟨[.ofFiles 1 1 1 1], true⟩
    d.getEnergy ⟨⟨0, 0⟩, 0, 0, 20⟩ < d.getEnergy ⟨⟨0, 0⟩, 3, 0, 1000⟩ :=
  (energy_strictMono ⟨[.ofFiles 1 1 1 1], true⟩ ⟨0, 0⟩
    fun _ => ⟨1, 1, 1, 1, one_pos, one_pos, rfl⟩).1 _ _ rfl rfl (by decide)

end Sprint3
