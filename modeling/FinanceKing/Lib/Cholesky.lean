import Mathlib

/-! A product of a lower triangular matrix and its transpose: the quadratic form it defines is a sum of
    squares, and with no zero on the diagonal it is positive at every vector but zero. -/

namespace Lib

variable {ι K : Type} [Fintype ι] [Field K]

/-- The form of a product with the transpose is the sum of the squares of the columns' products. -/
theorem quadraticForm_eq_sum_squares (L : ι → ι → K) (x : ι → K) :
    ∑ i, ∑ j, x i * (∑ m, L i m * L j m) * x j = ∑ m, (∑ i, x i * L i m) * ∑ i, x i * L i m := by
  simp only [Finset.mul_sum, Finset.sum_mul]
  calc ∑ i, ∑ j, ∑ m, x i * (L i m * L j m) * x j = ∑ i, ∑ m, ∑ j, x i * (L i m * L j m) * x j :=
        Finset.sum_congr rfl fun _ _ => Finset.sum_comm
    _ = ∑ m, ∑ i, ∑ j, x i * (L i m * L j m) * x j := Finset.sum_comm
    _ = ∑ m, ∑ i, ∑ j, x j * L j m * (x i * L i m) :=
        Finset.sum_congr rfl fun _ _ => Finset.sum_congr rfl fun _ _ => Finset.sum_congr rfl fun _ _ => by ring

variable [LinearOrder ι]

/-- Below its diagonal only: the column of the last non-zero coordinate sees that coordinate alone. -/
theorem column_of_last {L : ι → ι → K} {x : ι → K} (hlower : ∀ i m, i < m → L i m = 0) {last : ι}
    (hlast : ∀ i, last < i → x i = 0) : ∑ i, x i * L i last = x last * L last last := by
  refine Finset.sum_eq_single last (fun i _ hne => ?_) fun h => absurd (Finset.mem_univ last) h
  rcases lt_or_gt_of_ne hne with hbelow | habove
  · rw [hlower i last hbelow, mul_zero]
  · rw [hlast i habove, zero_mul]

/-- A non-zero vector has a last non-zero coordinate. -/
theorem exists_last_ne_zero {x : ι → K} (h : ∃ i, x i ≠ 0) :
    ∃ last, x last ≠ 0 ∧ ∀ i, last < i → x i = 0 := by
  classical
  obtain ⟨first, hfirst⟩ := h
  have hnonempty : (Finset.univ.filter fun i => x i ≠ 0).Nonempty := ⟨first, by simpa using hfirst⟩
  obtain ⟨last, hmem, hgreatest⟩ := Finset.exists_max_image _ id hnonempty
  refine ⟨last, (Finset.mem_filter.mp hmem).2, fun i hi => ?_⟩
  by_contra hne
  exact absurd (hgreatest i (Finset.mem_filter.mpr ⟨Finset.mem_univ i, hne⟩)) (not_le.mpr hi)

/-- A triangular factor with no zero on its diagonal makes the form positive definite. -/
theorem quadraticForm_pos [LinearOrder K] [IsStrictOrderedRing K] {L : ι → ι → K} {x : ι → K}
    (hlower : ∀ i m, i < m → L i m = 0) (hdiagonal : ∀ i, L i i ≠ 0) (h : ∃ i, x i ≠ 0) :
    0 < ∑ i, ∑ j, x i * (∑ m, L i m * L j m) * x j := by
  obtain ⟨last, hne, hlast⟩ := exists_last_ne_zero h
  rw [quadraticForm_eq_sum_squares]
  refine Finset.sum_pos' (fun m _ => mul_self_nonneg _) ⟨last, Finset.mem_univ last, ?_⟩
  rw [column_of_last hlower hlast]
  exact mul_self_pos.mpr (mul_ne_zero hne (hdiagonal last))

end Lib
