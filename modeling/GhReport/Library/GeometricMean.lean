import Mathlib.Analysis.SpecialFunctions.Log.Basic

/-! # Geometric means

The geometric mean of positive numbers, by way of their logarithms. Its power is
the product of the numbers, and so the means of lists of one length are ordered
as the products.
-/

namespace GeometricMean

noncomputable def geoMean (values : List ℝ) : ℝ :=
  Real.exp ((values.map Real.log).sum / values.length)

theorem exp_sum_log {values : List ℝ} (hpos : ∀ v ∈ values, 0 < v) :
    Real.exp (values.map Real.log).sum = values.prod := by
  induction values with
  | nil => exact Real.exp_zero
  | cons v values ih =>
    rw [List.forall_mem_cons] at hpos
    rw [List.map_cons, List.sum_cons, List.prod_cons, Real.exp_add, Real.exp_log hpos.1,
      ih hpos.2]

theorem geoMean_pow_length {values : List ℝ} (hne : values ≠ []) (hpos : ∀ v ∈ values, 0 < v) :
    geoMean values ^ values.length = values.prod := by
  have hlength : (values.length : ℝ) ≠ 0 :=
    Nat.cast_ne_zero.mpr (List.length_pos_of_ne_nil hne).ne'
  rw [geoMean, ← Real.exp_nat_mul, mul_div_cancel₀ _ hlength, exp_sum_log hpos]

/-- Lists of one length have their means in the order of their products. -/
theorem geoMean_le_iff {values values' : List ℝ} (hlength : values.length = values'.length)
    (hne : values ≠ []) (hpos : ∀ v ∈ values, 0 < v) (hpos' : ∀ v ∈ values', 0 < v) :
    geoMean values ≤ geoMean values' ↔ values.prod ≤ values'.prod := by
  have hne' : values' ≠ [] := by
    rw [← List.length_pos_iff, ← hlength]
    exact List.length_pos_of_ne_nil hne
  rw [← geoMean_pow_length hne hpos, ← geoMean_pow_length hne' hpos', ← hlength]
  exact (pow_le_pow_iff_left₀ (Real.exp_pos _).le (Real.exp_pos _).le
    (List.length_pos_of_ne_nil hne).ne').symm

end GeometricMean
