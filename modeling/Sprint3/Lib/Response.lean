/-
# A response curve and its inverse

The response `a E + b - c / (E - t)` to an energy `E` above the threshold `t`,
for positive `a` and `c`. It is strictly increasing there
(`response_strictMonoOn`), and `energyOf` is its inverse, defined on all of
`ℝ` (`eq_energyOf`) and strictly increasing too (`energyOf_strictMono`).
-/
import Mathlib.Analysis.Real.Sqrt

namespace Response

/-- The response to an energy. -/
noncomputable def response (a b c t E : ℝ) : ℝ := a * E + b - c / (E - t)

/-- The energy above `t` with a given response: the larger root of a quadratic. -/
noncomputable def energyOf (a b c t y : ℝ) : ℝ :=
  1 / (a + a) *
    (y + (a * t - b) + √((b + a * t - y) * (b + a * t - y) + (a + a) * (c + c)))

section Curve

variable {a c : ℝ} (b t : ℝ) (ha : 0 < a) (hc : 0 < c)

include ha hc

theorem response_strictMonoOn : StrictMonoOn (response a b c t) (Set.Ioi t) := by
  intro E hE E' hE' hlt
  have hpos : 0 < E - t := sub_pos.mpr hE
  have hterm : c / (E' - t) < c / (E - t) := div_lt_div_of_pos_left hc hpos (by linarith)
  have hline : a * E < a * E' := mul_lt_mul_of_pos_left hlt ha
  unfold response
  linarith

/-- The square root is beyond what it takes to be above the threshold. -/
theorem lt_sqrt (k : ℝ) : k < √(k * k + (a + a) * (c + c)) := by
  have hfac : 0 < (a + a) * (c + c) := by positivity
  calc k ≤ |k| := le_abs_self k
    _ = √(k * k) := (Real.sqrt_mul_self_eq_abs k).symm
    _ < √(k * k + (a + a) * (c + c)) := Real.sqrt_lt_sqrt (mul_self_nonneg k) (by linarith)

omit hc in
theorem energyOf_sub (y : ℝ) : energyOf a b c t y - t =
    (√((b + a * t - y) * (b + a * t - y) + (a + a) * (c + c)) - (b + a * t - y)) / (a + a) := by
  unfold energyOf
  field_simp
  ring

theorem lt_energyOf (y : ℝ) : t < energyOf a b c t y := by
  have hroot := lt_sqrt ha hc (b + a * t - y)
  have hsub : 0 < energyOf a b c t y - t := by
    rw [energyOf_sub b t ha]
    exact div_pos (sub_pos.mpr hroot) (by linarith)
  linarith

/-- `energyOf` has the response it is asked for. -/
theorem response_energyOf (y : ℝ) : response a b c t (energyOf a b c t y) = y := by
  have hroot := lt_sqrt ha hc (b + a * t - y)
  have hsquare : √((b + a * t - y) * (b + a * t - y) + (a + a) * (c + c)) ^ 2 =
      (b + a * t - y) * (b + a * t - y) + (a + a) * (c + c) :=
    Real.sq_sqrt (add_nonneg (mul_self_nonneg _) (by positivity))
  unfold response
  rw [energyOf_sub b t ha]
  unfold energyOf
  generalize √((b + a * t - y) * (b + a * t - y) + (a + a) * (c + c)) = s at hroot hsquare ⊢
  have hne : s - (b + a * t - y) ≠ 0 := (sub_pos.mpr hroot).ne'
  field_simp
  linarith

/-- **The inverse**: no other energy above the threshold has that response. -/
theorem eq_energyOf {y E : ℝ} (hE : t < E) (hy : response a b c t E = y) :
    E = energyOf a b c t y :=
  (response_strictMonoOn b t ha hc).injOn hE (lt_energyOf b t ha hc y)
    (hy.trans (response_energyOf b t ha hc y).symm)

theorem energyOf_strictMono : StrictMono (energyOf a b c t) := by
  intro y y' hlt
  by_contra hle
  have hresponse := (response_strictMonoOn b t ha hc).monotoneOn (lt_energyOf b t ha hc y')
    (lt_energyOf b t ha hc y) (not_lt.mp hle)
  rw [response_energyOf b t ha hc, response_energyOf b t ha hc] at hresponse
  exact absurd hlt (not_lt.mpr hresponse)

end Curve

end Response
