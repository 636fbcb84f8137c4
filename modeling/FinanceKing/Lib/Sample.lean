import Mathlib

/-! Statistics of a finite real sample: its mean, the power sums of its deviations, the variance and the
    central moments they give, and its autocovariances. -/

namespace Lib

noncomputable section

def sampleMean (l : List ℝ) : ℝ := l.sum / l.length

/-- What is left of each element once the mean is taken from it. -/
def deviations (l : List ℝ) : List ℝ := l.map fun x => x - sampleMean l

/-- The sum of the deviations, each raised to a power. -/
def powerSum (power : ℕ) (l : List ℝ) : ℝ := ((deviations l).map fun deviation => deviation ^ power).sum

/-- The unbiased variance: one degree of freedom went to the mean. -/
def sampleVariance (l : List ℝ) : ℝ := powerSum 2 l / (l.length - 1)

/-- The population moment about the mean. -/
def centralMoment (power : ℕ) (l : List ℝ) : ℝ := powerSum power l / l.length

/-- The products of the deviations a lag apart, summed. -/
def autocovariance (l : List ℝ) (lag : ℕ) : ℝ :=
  (List.zipWith (· * ·) ((deviations l).drop lag) (deviations l)).sum

end

theorem sampleMean_eq_zero_iff {l : List ℝ} (h : l ≠ []) : sampleMean l = 0 ↔ l.sum = 0 := by
  have hlength : (l.length : ℝ) ≠ 0 := Nat.cast_ne_zero.mpr (List.length_pos_iff.mpr h).ne'
  rw [sampleMean, div_eq_zero_iff]
  exact or_iff_left hlength

theorem powerSum_two_nonneg (l : List ℝ) : 0 ≤ powerSum 2 l :=
  List.sum_nonneg fun x hx => by
    obtain ⟨deviation, _, rfl⟩ := List.mem_map.mp hx
    exact sq_nonneg deviation

/-- A sample varies when two of its deviations do, whichever divisor measures it. -/
theorem sampleVariance_pos {l : List ℝ} (hlength : 2 ≤ l.length) (h : 0 < powerSum 2 l) :
    0 < sampleVariance l := by
  have hdivisor : (0 : ℝ) < l.length - 1 := by
    have hcast : (2 : ℝ) ≤ l.length := by exact_mod_cast hlength
    linarith
  exact div_pos h hdivisor

theorem centralMoment_two_pos {l : List ℝ} (hlength : l ≠ []) (h : 0 < powerSum 2 l) :
    0 < centralMoment 2 l :=
  div_pos h (Nat.cast_pos.mpr (List.length_pos_iff.mpr hlength))

end Lib
